/-
Rendering touches the selected leaves and nothing else.

A value is looked at in two ways, as a tree that another tree mirrors (`Mirrors`: the same keys,
the same lengths, related leaves), and as the row of its leaves with their paths (`leavesAt`).  The
first says what rendering gives, the second which fault it stops at:

* `anySelects_iff` — a path is selected if a selector has its beginning, key by key;
* `renderOn_eq` — the path that is handed on is the same behind a value as before it;
* `renderAt_eq_ok_iff` — what is rendered mirrors the value, with its selected leaves rendered;
* `renderAt_eq_error_iff` — the fault is that of the first selected leaf that cannot be rendered;
* `renderOn_selected` puts this together.
-/
import DocComment.Proofs.Configuration
import DocComment.Rendering
import Mathlib.Data.List.Forall2

namespace DocComment

/-! ### Selection -/

namespace Selector

/-- The selector has the beginning of the path, key by key; a star stands for any key. -/
def Covers (selector : String) (path : List String) : Prop :=
  ∃ front rest, path = front ++ rest ∧
    List.Forall₂ (fun key part => key = "*" ∨ key = part) (keys selector) front

theorem matchesKeys_iff {ks path : List String} :
    matchesKeys ks path = true ↔
      ∃ front rest, path = front ++ rest ∧
        List.Forall₂ (fun key part => key = "*" ∨ key = part) ks front := by
  fun_induction matchesKeys ks path with
  | case1 path => exact iff_of_true rfl ⟨[], path, rfl, .nil⟩
  | case2 k ks =>
    refine iff_of_false Bool.false_ne_true ?_
    rintro ⟨front, rest, hpath, hfront⟩
    cases hfront with
    | cons => cases hpath
  | case3 k ks part path ih =>
    rw [Bool.and_eq_true, Bool.or_eq_true, beq_iff_eq, beq_iff_eq, ih]
    constructor
    · rintro ⟨hk, front, rest, rfl, hfront⟩
      exact ⟨part :: front, rest, rfl, .cons hk hfront⟩
    · rintro ⟨front, rest, hpath, hfront⟩
      cases hfront with
      | cons hk hfront =>
        obtain ⟨rfl, rfl⟩ := List.cons.inj hpath
        exact ⟨hk, _, rest, rfl, hfront⟩

theorem anySelects_iff {selectors path : List String} :
    anySelects selectors path = true ↔ ∃ selector ∈ selectors, Covers selector path := by
  rw [anySelects, List.any_eq_true]
  exact exists_congr fun selector => and_congr_right' matchesKeys_iff

end Selector

/-- What a text is rendered to: whole paragraphs if it has more than one line. -/
def Context.markupOf (ctx : Context) (s : String) : Except Fault String :=
  if '\n' ∈ s.toList then ctx.renderer.block ctx.markdown s else ctx.renderer.inline ctx.markdown s

theorem Context.renderText_eq (ctx : Context) (s : String) :
    ctx.renderText s = (ctx.markupOf s).map .text := by
  rw [Context.renderText, Context.markupOf, Value.isSingleLine]
  by_cases h : '\n' ∈ s.toList <;> simp [h]

/-! ### Results in sequence -/

section Results

variable {α β γ : Type}

theorem map_eq_ok_iff {f : α → β} {x : Except Fault α} {b : β} :
    x.map f = .ok b ↔ ∃ a, x = .ok a ∧ f a = b := by
  cases x <;> simp [Except.map]

theorem bind_bind_eq_ok_iff {f : α → β → γ} {x : Except Fault α} {y : Except Fault β} {c : γ} :
    (do return f (← x) (← y)) = (.ok c : Except Fault γ) ↔
      ∃ a b, x = .ok a ∧ y = .ok b ∧ f a b = c := by
  cases x <;> cases y <;> simp [bind, Except.bind, pure, Except.pure]

def fault? : Except Fault α → Option Fault
  | .error fault => some fault
  | .ok _ => none

theorem fault?_map (f : α → β) (x : Except Fault α) : fault? (x.map f) = fault? x := by
  cases x <;> rfl

theorem fault?_bind_bind (f : α → β → γ) (x : Except Fault α) (y : Except Fault β) :
    fault? (do return f (← x) (← y)) = (fault? x).or (fault? y) := by
  cases x <;> cases y <;> rfl

theorem fault?_eq_some_iff {x : Except Fault α} {fault : Fault} :
    fault? x = some fault ↔ x = .error fault := by
  cases x <;> simp [fault?]

end Results

namespace Value

variable {ctx : Context}

/-- The leaf at the path is to be rendered, and this is its text: it is markdown, or a plain text
that a selector covers. -/
inductive IsSelected (ctx : Context) (path : List String) : Value → String → Prop where
  | markdown (s : String) : IsSelected ctx path (.markdown s) s
  | text {s : String} (h : ∃ selector ∈ ctx.renderMarkdownProps, Selector.Covers selector path) :
      IsSelected ctx path (.text s) s

/-- What becomes of a leaf: the markup of its text if it is selected, or else itself. -/
inductive IsRendered (ctx : Context) (path : List String) : Value → Value → Prop where
  | selected {v : Value} {s markup : String} (h : IsSelected ctx path v s)
      (hmarkup : ctx.markupOf s = .ok markup) : IsRendered ctx path v (.text markup)
  | other {v : Value} (h : ∀ s, ¬IsSelected ctx path v s) : IsRendered ctx path v v

/-! ### Trees and their leaves -/

def isLeaf : Value → Bool
  | .list _ | .record _ => false
  | _ => true

mutual

/-- The second value is the first one with other leaves: the leaves are related, at their paths,
and lengths and keys are the same. -/
inductive Mirrors (R : List String → Value → Value → Prop) : List String → Value → Value → Prop where
  | leaf {path : List String} {v w : Value} (hleaf : v.isLeaf = true) (h : R path v w) :
      Mirrors R path v w
  | list {path : List String} {vs ws : List Value} (h : ItemsMirror R path vs ws) :
      Mirrors R path (.list vs) (.list ws)
  | record {path : List String} {fs gs : List (String × Value)} (h : FieldsMirror R path fs gs) :
      Mirrors R path (.record fs) (.record gs)

inductive ItemsMirror (R : List String → Value → Value → Prop) :
    List String → List Value → List Value → Prop where
  | nil {path : List String} : ItemsMirror R path [] []
  | cons {path : List String} {v w : Value} {vs ws : List Value} (h : Mirrors R path v w)
      (hs : ItemsMirror R path vs ws) : ItemsMirror R path (v :: vs) (w :: ws)

inductive FieldsMirror (R : List String → Value → Value → Prop) :
    List String → List (String × Value) → List (String × Value) → Prop where
  | nil {path : List String} : FieldsMirror R path [] []
  | cons {path : List String} {k : String} {v w : Value} {fs gs : List (String × Value)}
      (h : Mirrors R (path ++ [k]) v w) (hs : FieldsMirror R path fs gs) :
      FieldsMirror R path ((k, v) :: fs) ((k, w) :: gs)

end

mutual

/-- The leaves of a value that stands at a path, in sequence and each with its own path: a record
adds its keys, a list adds nothing. -/
def leavesAt (path : List String) : Value → List (List String × Value)
  | .list items => leavesOfItems path items
  | .record fields => leavesOfFields path fields
  | .null => [(path, .null)]
  | .bool b => [(path, .bool b)]
  | .number n => [(path, .number n)]
  | .text s => [(path, .text s)]
  | .markdown s => [(path, .markdown s)]

def leavesOfItems (path : List String) : List Value → List (List String × Value)
  | [] => []
  | v :: vs => leavesAt path v ++ leavesOfItems path vs

def leavesOfFields (path : List String) : List (String × Value) → List (List String × Value)
  | [] => []
  | (k, v) :: fs => leavesAt (path ++ [k]) v ++ leavesOfFields path fs

end

/-! ### One path for the whole value -/

mutual

theorem renderOn_eq : ∀ (v : Value) (path : List String),
    v.renderOn ctx path = (v.renderAt ctx path, path)
  | .null, _ | .bool _, _ | .number _, _ | .markdown _, _ => rfl
  | .text s, path => by
    rw [renderOn, renderAt]
    split <;> rfl
  | .list items, path => by rw [renderOn, renderAt, renderItemsOn_eq items path]
  | .record fields, path => by rw [renderOn, renderAt, renderFieldsOn_eq fields path]

theorem renderItemsOn_eq : ∀ (vs : List Value) (path : List String),
    renderItemsOn ctx vs path = (renderItems ctx path vs, path)
  | [], _ => rfl
  | v :: vs, path => by
    rw [renderItemsOn, renderItems, renderOn_eq v path]
    cases renderAt ctx path v with
    | error fault => rfl
    | ok rendered =>
      simp only [renderItemsOn_eq vs path]
      cases renderItems ctx path vs <;> rfl

theorem renderFieldsOn_eq : ∀ (fs : List (String × Value)) (path : List String),
    renderFieldsOn ctx fs path = (renderFields ctx path fs, path)
  | [], _ => rfl
  | (k, v) :: fs, path => by
    rw [renderFieldsOn, renderFields, renderOn_eq v (path ++ [k])]
    -- what comes off the path is the key that was put on it
    simp only [List.dropLast_concat]
    cases renderAt ctx (path ++ [k]) v with
    | error fault => rfl
    | ok rendered =>
      simp only [renderFieldsOn_eq fs path]
      cases renderFields ctx path fs <;> rfl

end

/-! ### What is rendered -/

section Leaves

variable {path : List String} {v w : Value} {s : String}

theorem mirrors_iff_of_isLeaf {R : List String → Value → Value → Prop} (hleaf : v.isLeaf = true) :
    Mirrors R path v w ↔ R path v w := by
  refine ⟨fun h => ?_, .leaf hleaf⟩
  cases h with
  | leaf _ h => exact h
  | list => cases hleaf
  | record => cases hleaf

theorem not_isSelected_text (h : ¬Selector.anySelects ctx.renderMarkdownProps path = true)
    (t : String) : ¬IsSelected ctx path (.text s) t := by
  rintro (_ | hcovers)
  exact h (Selector.anySelects_iff.mpr hcovers)

theorem isRendered_iff_of_not_isSelected (h : ∀ s, ¬IsSelected ctx path v s) :
    IsRendered ctx path v w ↔ w = v := by
  constructor
  · rintro (⟨hs, -⟩ | -)
    · exact absurd hs (h _)
    · rfl
  · rintro rfl
    exact .other h

theorem IsSelected.eq {t : String} (hs : IsSelected ctx path v s) (ht : IsSelected ctx path v t) :
    t = s := by
  cases hs <;> cases ht <;> rfl

theorem isRendered_iff_of_isSelected (h : IsSelected ctx path v s) :
    IsRendered ctx path v w ↔ ctx.renderText s = .ok w := by
  rw [Context.renderText_eq]
  constructor
  · rintro (⟨ht, hmarkup⟩ | hother)
    · rw [h.eq ht] at hmarkup
      rw [hmarkup]
      rfl
    · exact absurd h (hother s)
  · intro hw
    cases hmarkup : ctx.markupOf s with
    | error fault =>
      rw [hmarkup] at hw
      cases hw
    | ok markup =>
      rw [hmarkup] at hw
      obtain rfl : Value.text markup = w := Except.ok.inj hw
      exact .selected h hmarkup

end Leaves

/-- A leaf that is not selected is kept. -/
theorem mirrors_iff_of_not_isSelected {path : List String} {v w : Value} (hleaf : v.isLeaf = true)
    (h : ∀ s, ¬IsSelected ctx path v s) : (.ok v : Except Fault Value) = .ok w ↔
      Mirrors (IsRendered ctx) path v w := by
  rw [mirrors_iff_of_isLeaf hleaf, isRendered_iff_of_not_isSelected h, Except.ok.injEq, eq_comm]

mutual

theorem renderAt_eq_ok_iff : ∀ (v : Value) (path : List String) (w : Value),
    v.renderAt ctx path = .ok w ↔ Mirrors (IsRendered ctx) path v w
  | .null, _, _ => mirrors_iff_of_not_isSelected rfl nofun
  | .bool _, _, _ => mirrors_iff_of_not_isSelected rfl nofun
  | .number _, _, _ => mirrors_iff_of_not_isSelected rfl nofun
  | .markdown s, path, w => by
    rw [renderAt, mirrors_iff_of_isLeaf rfl, isRendered_iff_of_isSelected (.markdown s)]
  | .text s, path, w => by
    rw [renderAt]
    split
    · next h =>
      rw [mirrors_iff_of_isLeaf rfl,
        isRendered_iff_of_isSelected (.text (Selector.anySelects_iff.mp h))]
    · next h => exact mirrors_iff_of_not_isSelected rfl (not_isSelected_text h)
  | .list vs, path, w => by
    rw [renderAt, map_eq_ok_iff]
    constructor
    · rintro ⟨ws, hws, rfl⟩
      exact .list ((renderItems_eq_ok_iff vs path ws).mp hws)
    · rintro (⟨⟨⟩⟩ | h | h)
      exact ⟨_, (renderItems_eq_ok_iff vs path _).mpr h, rfl⟩
  | .record fs, path, w => by
    rw [renderAt, map_eq_ok_iff]
    constructor
    · rintro ⟨gs, hgs, rfl⟩
      exact .record ((renderFields_eq_ok_iff fs path gs).mp hgs)
    · rintro (⟨⟨⟩⟩ | h | h)
      exact ⟨_, (renderFields_eq_ok_iff fs path _).mpr h, rfl⟩

theorem renderItems_eq_ok_iff : ∀ (vs : List Value) (path : List String) (ws : List Value),
    renderItems ctx path vs = .ok ws ↔ ItemsMirror (IsRendered ctx) path vs ws
  | [], path, ws => by
    rw [renderItems, Except.ok.injEq]
    constructor
    · rintro rfl
      exact .nil
    · rintro ⟨⟩
      rfl
  | v :: vs, path, ws => by
    rw [renderItems, bind_bind_eq_ok_iff]
    constructor
    · rintro ⟨w, ws, hw, hws, rfl⟩
      exact .cons ((renderAt_eq_ok_iff v path w).mp hw) ((renderItems_eq_ok_iff vs path ws).mp hws)
    · rintro (_ | ⟨h, hs⟩)
      exact ⟨_, _, (renderAt_eq_ok_iff v path _).mpr h,
        (renderItems_eq_ok_iff vs path _).mpr hs, rfl⟩

theorem renderFields_eq_ok_iff : ∀ (fs : List (String × Value)) (path : List String)
    (gs : List (String × Value)),
    renderFields ctx path fs = .ok gs ↔ FieldsMirror (IsRendered ctx) path fs gs
  | [], path, gs => by
    rw [renderFields, Except.ok.injEq]
    constructor
    · rintro rfl
      exact .nil
    · rintro ⟨⟩
      rfl
  | (k, v) :: fs, path, gs => by
    rw [renderFields, bind_bind_eq_ok_iff]
    constructor
    · rintro ⟨w, gs, hw, hgs, rfl⟩
      exact .cons ((renderAt_eq_ok_iff v (path ++ [k]) w).mp hw)
        ((renderFields_eq_ok_iff fs path gs).mp hgs)
    · rintro (_ | ⟨h, hs⟩)
      exact ⟨_, _, (renderAt_eq_ok_iff v (path ++ [k]) _).mpr h,
        (renderFields_eq_ok_iff fs path _).mpr hs, rfl⟩

end

/-! ### Where rendering fails -/

/-- The leaf is selected, and its text cannot be rendered. -/
def Refuses (ctx : Context) (p : List String × Value) (fault : Fault) : Prop :=
  ∃ s, IsSelected ctx p.1 p.2 s ∧ ctx.markupOf s = .error fault

/-- Why a leaf cannot be rendered. -/
def faultAt? (ctx : Context) : List String × Value → Option Fault
  | (_, .markdown s) => fault? (ctx.markupOf s)
  | (path, .text s) =>
    if Selector.anySelects ctx.renderMarkdownProps path then fault? (ctx.markupOf s) else none
  | _ => none

theorem faultAt?_eq_some_iff {p : List String × Value} {fault : Fault} :
    faultAt? ctx p = some fault ↔ Refuses ctx p fault := by
  have hselected {path : List String} {v : Value} {s : String} (h : IsSelected ctx path v s) :
      fault? (ctx.markupOf s) = some fault ↔ Refuses ctx (path, v) fault := by
    rw [fault?_eq_some_iff]
    refine ⟨fun hs => ⟨s, h, hs⟩, ?_⟩
    rintro ⟨t, ht, hfault⟩
    rwa [h.eq ht] at hfault
  have hother {path : List String} {v : Value} (h : ∀ s, ¬IsSelected ctx path v s) :
      none = some fault ↔ Refuses ctx (path, v) fault :=
    iff_of_false nofun fun ⟨s, hs, _⟩ => h s hs
  obtain ⟨path, v⟩ := p
  cases v with
  | markdown s => exact hselected (.markdown s)
  | text s =>
    rw [faultAt?]
    split
    · next h => exact hselected (.text (Selector.anySelects_iff.mp h))
    · next h => exact hother (not_isSelected_text h)
  | null => exact hother nofun
  | bool b => exact hother nofun
  | number n => exact hother nofun
  | list items => exact hother nofun
  | record fields => exact hother nofun

theorem exists_firstRefused_iff {leaves : List (List String × Value)} {fault : Fault} :
    (∃ before leaf, FirstRefused (fun _ => Refuses ctx) leaves before leaf fault) ↔
      leaves.findSome? (faultAt? ctx) = some fault := by
  rw [List.findSome?_eq_some_iff]
  constructor
  · rintro ⟨before, leaf, ⟨after, hsplit⟩, haccepted, hrefused⟩
    refine ⟨before, leaf, after, hsplit, faultAt?_eq_some_iff.mpr hrefused, fun p hp => ?_⟩
    obtain ⟨before', after', hbefore⟩ := List.append_of_mem hp
    rw [Option.eq_none_iff_forall_ne_some]
    exact fun other hother =>
      haccepted before' p after' hbefore other (faultAt?_eq_some_iff.mp hother)
  · rintro ⟨before, leaf, after, hsplit, hfault, hnone⟩
    refine ⟨before, leaf, ⟨after, hsplit⟩, ?_, faultAt?_eq_some_iff.mp hfault⟩
    rintro before' p after' rfl other hrefused
    have hp := hnone p (List.mem_append_right _ List.mem_cons_self)
    rw [faultAt?_eq_some_iff.mpr hrefused] at hp
    cases hp

mutual

theorem fault?_renderAt : ∀ (v : Value) (path : List String),
    fault? (v.renderAt ctx path) = (v.leavesAt path).findSome? (faultAt? ctx)
  | .null, _ | .bool _, _ | .number _, _ => rfl
  | .markdown s, path => by
    rw [renderAt, leavesAt, List.findSome?_singleton, Context.renderText_eq, fault?_map, faultAt?]
  | .text s, path => by
    rw [renderAt, leavesAt, List.findSome?_singleton, faultAt?]
    split
    · rw [Context.renderText_eq, fault?_map]
    · rfl
  | .list vs, path => by rw [renderAt, leavesAt, fault?_map, fault?_renderItems vs path]
  | .record fs, path => by rw [renderAt, leavesAt, fault?_map, fault?_renderFields fs path]

theorem fault?_renderItems : ∀ (vs : List Value) (path : List String),
    fault? (renderItems ctx path vs) = (leavesOfItems path vs).findSome? (faultAt? ctx)
  | [], _ => rfl
  | v :: vs, path => by
    rw [renderItems, leavesOfItems, fault?_bind_bind, List.findSome?_append,
      fault?_renderAt v path, fault?_renderItems vs path]

theorem fault?_renderFields : ∀ (fs : List (String × Value)) (path : List String),
    fault? (renderFields ctx path fs) = (leavesOfFields path fs).findSome? (faultAt? ctx)
  | [], _ => rfl
  | (k, v) :: fs, path => by
    rw [renderFields, leavesOfFields, fault?_bind_bind, List.findSome?_append,
      fault?_renderAt v (path ++ [k]), fault?_renderFields fs path]

end

theorem renderAt_eq_error_iff {v : Value} {path : List String} {fault : Fault} :
    v.renderAt ctx path = .error fault ↔
      ∃ before leaf, FirstRefused (fun _ => Refuses ctx) (v.leavesAt path) before leaf fault := by
  rw [exists_firstRefused_iff, ← fault?_renderAt, fault?_eq_some_iff]

/-! ### Nothing is left to render -/

theorem leavesAt_of_isLeaf {v : Value} (h : v.isLeaf = true) (path : List String) :
    v.leavesAt path = [(path, v)] := by
  cases v <;> first | rfl | cases h

theorem IsRendered.forall_leavesAt_ne {path : List String} {v w : Value}
    (h : IsRendered ctx path v w) (hleaf : v.isLeaf = true) :
    ∀ p ∈ w.leavesAt path, ∀ s, p.2 ≠ .markdown s := by
  cases h with
  | selected h hmarkup => simp [leavesAt]
  | other h =>
    rw [leavesAt_of_isLeaf hleaf, List.forall_mem_singleton]
    rintro s rfl
    exact h s (.markdown s)

mutual

theorem Mirrors.forall_leavesAt_ne {path : List String} {v w : Value} :
    Mirrors (IsRendered ctx) path v w → ∀ p ∈ w.leavesAt path, ∀ s, p.2 ≠ .markdown s
  | .leaf hleaf h => h.forall_leavesAt_ne hleaf
  | .list h => h.forall_leavesOfItems_ne
  | .record h => h.forall_leavesOfFields_ne

theorem ItemsMirror.forall_leavesOfItems_ne {path : List String} {vs ws : List Value} :
    ItemsMirror (IsRendered ctx) path vs ws → ∀ p ∈ leavesOfItems path ws, ∀ s, p.2 ≠ .markdown s
  | .nil => nofun
  | .cons h hs => List.forall_mem_append.mpr ⟨h.forall_leavesAt_ne, hs.forall_leavesOfItems_ne⟩

theorem FieldsMirror.forall_leavesOfFields_ne {path : List String} {fs gs : List (String × Value)} :
    FieldsMirror (IsRendered ctx) path fs gs → ∀ p ∈ leavesOfFields path gs, ∀ s, p.2 ≠ .markdown s
  | .nil => nofun
  | .cons h hs => List.forall_mem_append.mpr ⟨h.forall_leavesAt_ne, hs.forall_leavesOfFields_ne⟩

end

/-- **Rendering touches the selected leaves and nothing else.**  The path is handed back as it was.
What is rendered is the same tree with the selected leaves replaced by their markup, and no markdown
is left in it; the fault, if there is one, is that of the first selected leaf whose text cannot be
rendered; and there is none if the texts of all selected leaves can. -/
theorem renderOn_selected (ctx : Context) (v : Value) (path : List String) :
    ∃ result, v.renderOn ctx path = (result, path) ∧
      (∀ w, result = .ok w ↔ Mirrors (IsRendered ctx) path v w) ∧
      (∀ fault, result = .error fault ↔
        ∃ before leaf, FirstRefused (fun _ => Refuses ctx) (v.leavesAt path) before leaf fault) ∧
      ((∀ p ∈ v.leavesAt path, ∀ s, IsSelected ctx p.1 p.2 s →
          ∃ markup, ctx.markupOf s = .ok markup) →
        ∃ w, result = .ok w ∧ ∀ p ∈ w.leavesAt path, ∀ s, p.2 ≠ .markdown s) := by
  refine ⟨v.renderAt ctx path, renderOn_eq v path, renderAt_eq_ok_iff v path,
    fun fault => renderAt_eq_error_iff, fun hselected => ?_⟩
  cases hresult : v.renderAt ctx path with
  | ok w => exact ⟨w, rfl, ((renderAt_eq_ok_iff v path w).mp hresult).forall_leavesAt_ne⟩
  | error fault =>
    obtain ⟨before, leaf, ⟨after, hsplit⟩, -, s, hs, hfault⟩ := renderAt_eq_error_iff.mp hresult
    have hleaf : leaf ∈ v.leavesAt path := by simp [hsplit]
    obtain ⟨markup, hmarkup⟩ := hselected leaf hleaf s hs
    rw [hmarkup] at hfault
    cases hfault

/-- A note below `see` is selected, a link is not; the list between them adds nothing. -/
example :
    let ctx : Context :=
      { renderMarkdownProps := ["see.note"],
        renderer := ⟨fun _ s => .ok ("<p>" ++ s ++ "</p>"), fun _ s => .ok ("<i>" ++ s ++ "</i>")⟩ }
    (Value.record [("see", .list [.record [("url", .text "u"), ("note", .text "n")]]),
        ("about", .markdown "a\nb")]).renderOn ctx [] =
      (.ok (.record [("see", .list [.record [("url", .text "u"), ("note", .text "<i>n</i>")]]),
        ("about", .text "<p>a\nb</p>")]), []) := rfl

end Value

end DocComment
