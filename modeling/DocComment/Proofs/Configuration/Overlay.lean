/-
Layers put over each other, seen at paths of keys.

`Json.at?` looks a value up at a path.  Objects merge and everything else is replaced, so as long as
no layer has an object where another one has something else (`Json.SameShape`, which can be checked
with `shapesAgree`), a path leads to what the highest layer has there, with the lower layers below
it if that is an object (`at?_overlay`).

* `Json.IsTidy.overlay`, `at?_sorted` — merged documents keep distinct keys, and sorting the keys
  moves nothing to another path;
* `IsStack` says this of a document and several layers; the highest comes first.  It holds of one
  layer, another layer keeps it (`IsStack.cons`), so it holds of all (`isStack_stack`);
* `at?_stack_of_areApart` — of layers that set nothing in common, none takes from another.
-/
import DocComment.Proofs.Configuration.Layers
import DocComment.Proofs.Json.Reader
import Mathlib.Data.List.Pairwise

namespace DocComment

namespace Json

/-! ### Paths -/

/-- What is at a path of keys. -/
def at? (j : Json) (path : List String) : Option Json := path.foldlM get? j

@[simp] theorem at?_nil (j : Json) : j.at? [] = some j := rfl

@[simp] theorem at?_cons (j : Json) (key : String) (path : List String) :
    j.at? (key :: path) = (j.get? key).bind (·.at? path) := rfl

/-- The value is an object. -/
inductive IsMap : Json → Prop where
  | object (members : Keyed Json) : IsMap (.object members)

theorem IsMap.exists_members {j : Json} (h : j.IsMap) : ∃ members, j = .object members := by
  cases h with
  | object members => exact ⟨members, rfl⟩

/-- No path leads to an object in one document and to something else in the other. -/
def SameShape (j j' : Json) : Prop :=
  ∀ path v v', j.at? path = some v → j'.at? path = some v' → (v.IsMap ↔ v'.IsMap)

/-- The documents set nothing in common: what is in both is an object in both. -/
def AreApart (j j' : Json) : Prop :=
  ∀ path v v', j.at? path = some v → j'.at? path = some v' → v.IsMap ∧ v'.IsMap

theorem get?_of_not_isMap {j : Json} (h : ¬j.IsMap) (key : String) : j.get? key = none := by
  cases j with
  | object members => exact absurd (.object members) h
  | _ => rfl

theorem overlay_of_not_isMap {j : Json} (h : ¬j.IsMap) (low : Json) : overlay j low = j := by
  cases j with
  | object members => exact absurd (.object members) h
  | _ => rfl

theorem isMap_overlay_iff (j low : Json) : (overlay j low).IsMap ↔ j.IsMap := by
  cases j with
  | object members => cases low <;> exact iff_of_true (.object _) (.object _)
  | _ => rfl

theorem sorted_isMap_iff (j : Json) : j.sorted.IsMap ↔ j.IsMap := by
  cases j with
  | object members => exact iff_of_true (.object _) (.object _)
  | _ => exact iff_of_false (fun h => nomatch h) (fun h => nomatch h)

namespace SameShape

theorem refl (j : Json) : SameShape j j := by
  intro path v v' hv hv'
  rw [Option.some.inj (hv.symm.trans hv')]

theorem symm {j j' : Json} (h : SameShape j j') : SameShape j' j :=
  fun path v v' hv hv' => (h path v' v hv' hv).symm

theorem of_pairwise {layers : List Json} (h : layers.Pairwise SameShape) {j j' : Json}
    (hj : j ∈ layers) (hj' : j' ∈ layers) : SameShape j j' :=
  have : Std.Symm SameShape := ⟨fun _ _ h => h.symm⟩
  h.forall_of_forall (fun j _ => SameShape.refl j) hj hj'

theorem isMap_iff {j j' : Json} (h : SameShape j j') : j.IsMap ↔ j'.IsMap := h [] j j' rfl rfl

theorem get? {j j' v v' : Json} (h : SameShape j j') {key : String} (hv : j.get? key = some v)
    (hv' : j'.get? key = some v') : SameShape v v' := by
  intro path w w' hw hw'
  refine h (key :: path) w w' ?_ ?_
  · rw [at?_cons, hv, Option.bind_some, hw]
  · rw [at?_cons, hv', Option.bind_some, hw']

end SameShape

/-! ### Checking shapes -/

mutual

/-- Checks the shapes of two documents against each other. -/
def shapesAgree : Json → Json → Bool
  | .object ms, .object ms' => memberShapesAgree ms ms'
  | .object _, _ => false
  | _, .object _ => false
  | _, _ => true

def memberShapesAgree : List (String × Json) → Keyed Json → Bool
  | [], _ => true
  | (k, v) :: ms, ms' =>
    ((Keyed.get? ms' k).all fun v' => shapesAgree v v') && memberShapesAgree ms ms'

end

theorem shapesAgree_of_memberShapesAgree {ms ms' : Keyed Json}
    (h : memberShapesAgree ms ms' = true) {key : String} {v v' : Json}
    (hv : Keyed.get? ms key = some v) (hv' : Keyed.get? ms' key = some v') :
    shapesAgree v v' = true := by
  induction ms with
  | nil => cases hv
  | cons p ms ih =>
    obtain ⟨k, w⟩ := p
    rw [memberShapesAgree, Bool.and_eq_true] at h
    rw [Keyed.get?] at hv
    split at hv
    · next hk =>
      subst hk
      cases hv
      rw [hv'] at h
      exact h.1
    · exact ih h.2 hv

theorem sameShape_of_shapesAgree {j j' : Json} (h : shapesAgree j j' = true) : SameShape j j' := by
  intro path
  induction path generalizing j j' with
  | nil =>
    rintro _ _ ⟨⟩ ⟨⟩
    cases j with
    | object ms =>
      cases j' with
      | object ms' => exact iff_of_true (.object ms) (.object ms')
      | _ => cases h
    | _ =>
      cases j' with
      | object ms' => cases h
      | _ => exact iff_of_false (fun h => nomatch h) fun h => nomatch h
  | cons key path ih =>
    intro w w' hw hw'
    obtain ⟨v, hv, hw⟩ := Option.bind_eq_some_iff.mp hw
    obtain ⟨v', hv', hw'⟩ := Option.bind_eq_some_iff.mp hw'
    refine ih ?_ w w' hw hw'
    cases j with
    | object ms =>
      cases j' with
      | object ms' => exact shapesAgree_of_memberShapesAgree h hv hv'
      | _ => cases hv'
    | _ => cases hv

/-! ### Distinct keys -/

theorem isTidy_ofList {pairs : List (String × Json)} (h : ∀ p ∈ pairs, p.2.IsTidy) :
    (Json.object (Keyed.ofList pairs)).IsTidy :=
  .object (Keyed.nodup_keys_ofList pairs) fun p hp => h p (Keyed.mem_of_mem_ofList hp)

theorem isTidy_strings (ss : List String) : (Json.array (ss.map .string)).IsTidy := by
  refine .array fun j hj => ?_
  obtain ⟨s, -, rfl⟩ := List.mem_map.mp hj
  exact .string s

theorem isTidy_overlayMembers {ms : Keyed Json}
    (hms : ∀ p ∈ ms, ∀ low : Json, low.IsTidy → (overlay p.2 low).IsTidy)
    (htidy : ∀ p ∈ ms, p.2.IsTidy)
    {low : Keyed Json} (hlow : (Json.object low).IsTidy) :
    (Json.object (overlayMembers ms low)).IsTidy := by
  induction ms generalizing low with
  | nil => exact hlow
  | cons p ms ih =>
    obtain ⟨k, v⟩ := p
    obtain ⟨hv, hms⟩ := List.forall_mem_cons.mp hms
    obtain ⟨hvtidy, htidy⟩ := List.forall_mem_cons.mp htidy
    rw [overlayMembers]
    refine ih hms htidy (hlow.insert k ?_)
    cases hold : Keyed.get? low k with
    | none => exact hvtidy
    | some old => exact hv old (hlow.of_get? hold)

theorem IsTidy.overlay {j : Json} (h : j.IsTidy) {low : Json} (hlow : low.IsTidy) :
    (overlay j low).IsTidy := by
  induction h generalizing low with
  | @object members hkeys h ih =>
    cases low with
    | object low => exact isTidy_overlayMembers (fun p hp low hlow => ih p hp hlow) h hlow
    | _ => exact .object hkeys h
  | array h => exact .array h
  | _ => constructor

/-! ### One layer over another -/

/-- At each path the higher layer is put over the lower one. -/
theorem at?_overlay {j low : Json} (hj : j.IsTidy) (h : SameShape j low) (path : List String) :
    (overlay j low).at? path =
      match j.at? path with
      | none => low.at? path
      | some v => some ((low.at? path).elim v (overlay v)) := by
  induction path generalizing j low with
  | nil => rfl
  | cons key path ih =>
    by_cases hmap : j.IsMap
    · obtain ⟨members⟩ := hmap
      obtain ⟨low⟩ := h.isMap_iff.mp (.object members)
      have hget : (overlay (.object members) (.object low)).get? key = _ :=
        get?_overlayMembers hj.nodup_keys low key
      rw [at?_cons, hget, at?_cons, at?_cons]
      cases hv : Keyed.get? members key with
      | none => simp [get?, hv]
      | some v =>
        have hv' : (Json.object members).get? key = some v := hv
        rw [hv']
        cases hw : Keyed.get? low key with
        | none =>
          have hw' : (Json.object low).get? key = none := hw
          rw [hw']
          simp
          cases v.at? path <;> rfl
        | some w =>
          have hw' : (Json.object low).get? key = some w := hw
          rw [hw']
          exact ih (hj.of_get? hv) (h.get? hv' hw')
    · have hlow : ¬low.IsMap := fun hlow => hmap (h.isMap_iff.mpr hlow)
      rw [overlay_of_not_isMap hmap, at?_cons, at?_cons, get?_of_not_isMap hmap,
        get?_of_not_isMap hlow]
      rfl

theorem at?_sorted {j : Json} (hj : j.IsTidy) (path : List String) :
    j.sorted.at? path = (j.at? path).map sorted := by
  induction path generalizing j with
  | nil => rfl
  | cons key path ih =>
    rw [at?_cons, at?_cons]
    by_cases hmap : j.IsMap
    · obtain ⟨members⟩ := hmap
      rw [get?_sorted hj.nodup_keys]
      cases hv : Keyed.get? members key with
      | none => simp [get?, hv]
      | some v =>
        have hv' : (Json.object members).get? key = some v := hv
        rw [hv']
        exact ih (hj.of_get? hv)
    · rw [get?_of_not_isMap hmap, get?_of_not_isMap fun h => hmap ((sorted_isMap_iff j).mp h)]
      rfl

/-! ### Several layers -/

/-- What the first document that has something at a path has there. -/
def firstAt? (layers : List Json) (path : List String) : Option Json :=
  layers.findSome? (·.at? path)

/-- The document has what the layers set, of which the highest comes first: nothing where no layer
sets something, an object where the highest that does sets an object, else what that one sets. -/
structure IsStack (layers : List Json) (j : Json) : Prop where
  isTidy : j.IsTidy
  eq_none : ∀ path, firstAt? layers path = none → j.at? path = none
  eq_some : ∀ path v, firstAt? layers path = some v →
    ∃ w, j.at? path = some w ∧ (w.IsMap ↔ v.IsMap) ∧ (¬v.IsMap → w = v)

namespace IsStack

variable {layers : List Json} {j : Json}

theorem exists_firstAt? (h : IsStack layers j) {path : List String} {w : Json}
    (hw : j.at? path = some w) : ∃ v, firstAt? layers path = some v ∧ (w.IsMap ↔ v.IsMap) := by
  cases hv : firstAt? layers path with
  | none =>
    rw [h.eq_none path hv] at hw
    cases hw
  | some v =>
    obtain ⟨w', hw', hmap, -⟩ := h.eq_some path v hv
    exact ⟨v, rfl, Option.some.inj (hw.symm.trans hw') ▸ hmap⟩

/-- No higher layer is of another shape than the document, if it is not of another shape than the
layers. -/
theorem sameShape (h : IsStack layers j) {high : Json}
    (hshape : ∀ layer ∈ layers, SameShape high layer) : SameShape high j := by
  intro path v w hv hw
  obtain ⟨u, hu, hmap⟩ := h.exists_firstAt? hw
  obtain ⟨layer, hlayer, hat⟩ := List.exists_of_findSome?_eq_some hu
  exact (hshape layer hlayer path v u hv hat).trans hmap.symm

/-- Another layer on top. -/
theorem cons (h : IsStack layers j) {high : Json} (hhigh : high.IsTidy)
    (hshape : ∀ layer ∈ layers, SameShape high layer) :
    IsStack (high :: layers) (overlay high j) := by
  have hat := at?_overlay hhigh (h.sameShape hshape)
  refine ⟨hhigh.overlay h.isTidy, fun path hnone => ?_, fun path v hv => ?_⟩
  · rw [firstAt?, List.findSome?_cons] at hnone
    rw [hat]
    cases hv : high.at? path with
    | none =>
      rw [hv] at hnone
      exact h.eq_none path hnone
    | some v =>
      rw [hv] at hnone
      cases hnone
  · rw [firstAt?, List.findSome?_cons] at hv
    rw [hat]
    cases hhv : high.at? path with
    | none =>
      rw [hhv] at hv
      exact h.eq_some path v hv
    | some u =>
      rw [hhv] at hv
      cases hv
      refine ⟨_, rfl, ?_, fun hleaf => ?_⟩
      · cases j.at? path with
        | none => exact Iff.rfl
        | some w => exact isMap_overlay_iff _ w
      · cases j.at? path with
        | none => rfl
        | some w => exact overlay_of_not_isMap hleaf w

end IsStack

theorem exists_firstAt?_of_mem {layers : List Json} {layer : Json} (hlayer : layer ∈ layers)
    {path : List String} {v : Json} (hv : layer.at? path = some v) :
    ∃ u, firstAt? layers path = some u := by
  rw [← Option.isSome_iff_exists, firstAt?, List.findSome?_isSome_iff]
  exact ⟨layer, hlayer, by rw [hv]; rfl⟩

/-- One layer. -/
theorem isStack_singleton {j : Json} (hj : j.IsTidy) : IsStack [j] j := by
  refine ⟨hj, fun path h => ?_, fun path v h => ⟨v, ?_, Iff.rfl, fun _ => rfl⟩⟩
  all_goals
    rw [firstAt?, List.findSome?_cons] at h
    cases hv : j.at? path <;> simp_all

end Json

namespace Configuration

open Json

theorem stack_reverse_cons (high : Json) (layers : List Json) :
    stack (high :: layers).reverse = overlay high (stack layers.reverse) := by
  rw [List.reverse_cons, stack, List.foldl_append]
  rfl

theorem isTidy_stack {layers : List Json} (h : ∀ layer ∈ layers, layer.IsTidy) :
    (stack layers).IsTidy := by
  induction layers using List.reverseRecOn with
  | nil => exact isTidy_emptyObject
  | append_singleton layers high ih =>
    obtain ⟨hlayers, hhigh⟩ := List.forall_mem_append.mp h
    rw [stack, List.foldl_append]
    exact (hhigh high List.mem_cons_self).overlay (ih hlayers)

theorem isMap_stack {layers : List Json} (h : ∀ layer ∈ layers, layer.IsMap) :
    (stack layers).IsMap := by
  cases layers using List.reverseRecOn with
  | nil => exact .object []
  | append_singleton layers high =>
    rw [stack, List.foldl_append]
    exact (isMap_overlay_iff high _).mpr (h high (by simp))

/-- Any number of layers of one shape. -/
theorem isStack_stack {layers : List Json} (hne : layers ≠ [])
    (htidy : ∀ layer ∈ layers, layer.IsTidy) (hmap : ∀ layer ∈ layers, layer.IsMap)
    (hshape : layers.Pairwise SameShape) : IsStack layers (stack layers.reverse) := by
  induction layers with
  | nil => exact absurd rfl hne
  | cons high layers ih =>
    obtain ⟨hhigh, hlower⟩ := List.forall_mem_cons.mp htidy
    obtain ⟨⟨members⟩, hlowerMap⟩ := List.forall_mem_cons.mp hmap
    obtain ⟨hsame, hlowerShape⟩ := List.pairwise_cons.mp hshape
    rw [stack_reverse_cons]
    cases layers with
    | nil =>
      have hover : overlay (.object members) (stack [].reverse) = .object members :=
        congrArg Json.object (overlayMembers_nil hhigh.nodup_keys)
      rw [hover]
      exact isStack_singleton hhigh
    | cons next layers =>
      exact (ih (List.cons_ne_nil _ _) hlower hlowerMap hlowerShape).cons hhigh hsame

/-- Layers that set nothing in common all have what they set. -/
theorem at?_stack_of_areApart {layers : List Json} (htidy : ∀ layer ∈ layers, layer.IsTidy)
    (hmap : ∀ layer ∈ layers, layer.IsMap) (hapart : layers.Pairwise AreApart) {layer : Json}
    (hlayer : layer ∈ layers) {path : List String} {v : Json} (hv : layer.at? path = some v)
    (hleaf : ¬v.IsMap) : (stack layers).at? path = some v := by
  have hsymm : Std.Symm AreApart :=
    ⟨fun _ _ h path v v' hv hv' => (h path v' v hv' hv).symm⟩
  have hshape : layers.reverse.Pairwise SameShape :=
    List.pairwise_reverse.mpr (hapart.imp fun h path v v' hv hv' =>
      have hmaps := h path v' v hv' hv
      iff_of_true hmaps.2 hmaps.1)
  have hstack : IsStack layers.reverse (stack layers.reverse.reverse) :=
    isStack_stack (List.reverse_ne_nil_iff.mpr (List.ne_nil_of_mem hlayer))
      (fun _ h => htidy _ (List.mem_reverse.mp h)) (fun _ h => hmap _ (List.mem_reverse.mp h))
      hshape
  rw [List.reverse_reverse] at hstack
  obtain ⟨u, hu⟩ := exists_firstAt?_of_mem (List.mem_reverse.mpr hlayer) hv
  obtain ⟨other, hother, hat⟩ := List.exists_of_findSome?_eq_some hu
  -- no other layer has anything there
  obtain rfl : other = layer := by
    by_contra hne
    exact hleaf (hapart.forall (List.mem_reverse.mp hother) hlayer hne path u v hat hv).2
  obtain rfl : u = v := Option.some.inj (hat.symm.trans hv)
  obtain ⟨w, hw, -, hvalue⟩ := hstack.eq_some path u hu
  rw [hw, hvalue hleaf]

end Configuration

end DocComment
