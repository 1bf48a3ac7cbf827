/-
What the reading machine makes of a document.

* A document that is read is tidy: each of its objects has each key once (`isTidy_of_parseText?`).
  What the machine holds is tidy from the start, and every token leaves it so (`IsTidy.step`,
  `IsTidy.run`).
* `run?_commaStrings` — behind an item of an array, texts after commas are read as further items.
-/
import DocComment.Json.Reader
import DocComment.Proofs.Keyed

namespace DocComment.Json

/-! ### Distinct keys -/

/-- Every object of the document has each key once. -/
inductive IsTidy : Json → Prop where
  | null : IsTidy .null
  | bool (b : Bool) : IsTidy (.bool b)
  | number (n : Number) : IsTidy (.number n)
  | string (s : String) : IsTidy (.string s)
  | array {items : List Json} (h : ∀ j ∈ items, IsTidy j) : IsTidy (.array items)
  | object {members : Keyed Json} (nodup_keys : members.keys.Nodup)
      (h : ∀ p ∈ members, IsTidy p.2) : IsTidy (.object members)

theorem isTidy_emptyObject : IsTidy (.object []) := .object List.nodup_nil (List.forall_mem_nil _)

theorem IsTidy.nodup_keys {members : Keyed Json} (h : IsTidy (.object members)) :
    members.keys.Nodup := by
  cases h with
  | object hkeys _ => exact hkeys

theorem IsTidy.of_get? {members : Keyed Json} (h : IsTidy (.object members)) {key : String}
    {j : Json} (hj : Keyed.get? members key = some j) : j.IsTidy := by
  cases h with
  | object _ h => exact h _ (Keyed.mem_of_get? hj)

theorem IsTidy.insert {members : Keyed Json} (h : IsTidy (.object members)) (key : String)
    {v : Json} (hv : v.IsTidy) : IsTidy (.object (members.insert key v)) := by
  cases h with
  | object hkeys h =>
    refine .object (Keyed.nodup_keys_alter hkeys key _) fun p hp => ?_
    rcases Keyed.mem_insert hp with hp | rfl
    · exact h p hp
    · exact hv

/-- What has been read of the array or object is tidy. -/
inductive Frame.IsTidy : Frame → Prop where
  | items {done : List Json} (h : ∀ j ∈ done, j.IsTidy) : IsTidy (.items done)
  | members {done : Keyed Json} (h : (Json.object done).IsTidy) (key : String) :
      IsTidy (.members done key)

theorem Frame.IsTidy.done {done : Keyed Json} {key : String}
    (h : Frame.IsTidy (.members done key)) : (Json.object done).IsTidy := by
  cases h with
  | members h _ => exact h

namespace Reader

/-- All that has been read is tidy. -/
inductive IsTidy : Reader → Prop where
  | value {stack : List Frame} (hstack : ∀ f ∈ stack, f.IsTidy) : IsTidy (.value stack)
  | firstItem {stack : List Frame} (hstack : ∀ f ∈ stack, f.IsTidy) : IsTidy (.firstItem stack)
  | firstKey {stack : List Frame} (hstack : ∀ f ∈ stack, f.IsTidy) : IsTidy (.firstKey stack)
  | key {done : Keyed Json} {stack : List Frame} (h : (Json.object done).IsTidy)
      (hstack : ∀ f ∈ stack, f.IsTidy) : IsTidy (.key done stack)
  | colon {done : Keyed Json} {stack : List Frame} (h : (Json.object done).IsTidy) (key : String)
      (hstack : ∀ f ∈ stack, f.IsTidy) : IsTidy (.colon done key stack)
  | after {v : Json} {stack : List Frame} (h : v.IsTidy) (hstack : ∀ f ∈ stack, f.IsTidy) :
      IsTidy (.after v stack)

theorem isTidy_of_valueStep? {stack : List Frame} (hstack : ∀ f ∈ stack, f.IsTidy)
    {token : Token} {r : Reader} (h : valueStep? stack token = some r) : r.IsTidy := by
  unfold valueStep? at h
  split at h
  · cases h; exact .after .null hstack
  · cases h; exact .after (.bool _) hstack
  · cases h; exact .after (.number _) hstack
  · cases h; exact .after (.string _) hstack
  · split at h <;> cases h
    exact .firstItem hstack
  · split at h <;> cases h
    exact .firstKey hstack
  · cases h

theorem IsTidy.step {r r' : Reader} (hr : r.IsTidy) {token : Token}
    (h : r.step? token = some r') : r'.IsTidy := by
  unfold step? at h
  split at h
  · cases hr with
    | value hstack => exact isTidy_of_valueStep? hstack h
  · cases h
    cases hr with
    | firstItem hstack => exact .after (.array (List.forall_mem_nil _)) hstack
  · cases hr with
    | firstItem hstack =>
      exact isTidy_of_valueStep? (List.forall_mem_cons.mpr ⟨.items (List.forall_mem_nil _), hstack⟩) h
  · cases h
    cases hr with
    | firstKey hstack => exact .after isTidy_emptyObject hstack
  · cases h
    cases hr with
    | firstKey hstack => exact .colon isTidy_emptyObject _ hstack
  · cases h
    cases hr with
    | key hdone hstack => exact .colon hdone _ hstack
  · cases h
    cases hr with
    | colon hdone _ hstack => exact .value (List.forall_mem_cons.mpr ⟨.members hdone _, hstack⟩)
  · -- a comma in an array
    cases h
    cases hr with
    | after hv hstack =>
      obtain ⟨⟨hdone⟩, hstack⟩ := List.forall_mem_cons.mp hstack
      exact .value (List.forall_mem_cons.mpr ⟨.items (List.forall_mem_cons.mpr ⟨hv, hdone⟩), hstack⟩)
  · -- the end of an array
    cases h
    cases hr with
    | after hv hstack =>
      obtain ⟨⟨hdone⟩, hstack⟩ := List.forall_mem_cons.mp hstack
      refine .after (.array fun j hj => ?_) hstack
      exact List.forall_mem_cons.mpr ⟨hv, hdone⟩ j (List.mem_reverse.mp hj)
  · -- a comma in an object
    cases h
    cases hr with
    | after hv hstack =>
      obtain ⟨hframe, hstack⟩ := List.forall_mem_cons.mp hstack
      exact .key (hframe.done.insert _ hv) hstack
  · -- the end of an object
    cases h
    cases hr with
    | after hv hstack =>
      obtain ⟨hframe, hstack⟩ := List.forall_mem_cons.mp hstack
      exact .after (hframe.done.insert _ hv) hstack
  · cases h

theorem IsTidy.run {r r' : Reader} (hr : r.IsTidy) {tokens : List Token}
    (h : r.run? tokens = some r') : r'.IsTidy := by
  induction tokens generalizing r with
  | nil =>
    cases h
    exact hr
  | cons token tokens ih =>
    rw [run?, List.foldlM_cons] at h
    obtain ⟨next, hnext, h⟩ := Option.bind_eq_some_iff.mp h
    exact ih (hr.step hnext) h

theorem IsTidy.result {r : Reader} (hr : r.IsTidy) {j : Json} (h : r.result? = some j) :
    j.IsTidy := by
  cases hr with
  | @after v stack hv _ =>
    cases stack <;> cases h
    exact hv
  | _ => cases h

end Reader

theorem isTidy_of_parseText? {t : Text} {j : Json} (h : parseText? t = some j) : j.IsTidy := by
  obtain ⟨tokens, -, h⟩ := Option.bind_eq_some_iff.mp h
  obtain ⟨reader, hrun, h⟩ := Option.bind_eq_some_iff.mp h
  exact ((Reader.IsTidy.value (List.forall_mem_nil _)).run hrun).result h

/-! ### Arrays of texts -/

/-- Behind an item of an array, texts after commas become further items. -/
theorem run?_commaStrings (v : Json) (done : List Json) (stack : List Frame) (ss : List String) :
    (Reader.after v (.items done :: stack)).run?
        (ss.flatMap (fun s => [.comma, .string s]) ++ [.closeBracket]) =
      some (.after (.array ((v :: done).reverse ++ ss.map .string)) stack) := by
  induction ss generalizing v done with
  | nil => simp [Reader.run?, Reader.step?]
  | cons s ss ih =>
    have hstep : (Reader.after v (.items done :: stack)).run? [.comma, .string s] =
        some (.after (.string s) (.items (v :: done) :: stack)) := rfl
    rw [List.flatMap_cons, List.append_assoc, Reader.run?_append, hstep, Option.bind_some, ih]
    simp

end DocComment.Json
