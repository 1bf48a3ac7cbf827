/-
How the text of a tag is laid out in columns.

A `Layout` is a text put together from columns: each is trimmed, not empty and has neither a tab nor
two adjacent blanks in it, the gaps between them are a tab or two blanks at least, and there may be
blanks around it all.  Cutting and laying out are inverse:

* `columnsOf_text` — the columns of a layout come back from its text, whatever the gaps were;
* `exists_layout` — every text that is not blank is the text of a layout;
* `columns_layout` — so every column of such a text is one that a layout may have, and no tag is
  read with an empty one.

Design notes: a gap never starts inside of a column (`IsUnbroken`), whatever stands behind the
column, and it never ends before the blanks do.  These are the two cases of `columnsFrom`.
-/
import DocComment.Proofs.Comment.Entries
import DocComment.Proofs.Comment.Sections
import DocComment.Proofs.Tag.Parameter
import Mathlib.Data.List.Chain

namespace DocComment

namespace Text

/-- What may stand between columns: a single tab, or two blanks at least. -/
def IsGap (g : Text) : Prop := g = ['\t'] ∨ (2 ≤ g.length ∧ isBlank g = true)

/-- What may stand in a column. -/
structure IsColumn (f : Text) : Prop where
  ne_nil : f ≠ []
  trim_eq : trim f = f
  tab_notMem : '\t' ∉ f
  single_blanks : f.IsChain fun c d => DocComment.isBlank c = false ∨ DocComment.isBlank d = false

instance (g : Text) : Decidable (IsGap g) :=
  inferInstanceAs (Decidable (g = ['\t'] ∨ (2 ≤ g.length ∧ isBlank g = true)))

instance (f : Text) : Decidable (IsColumn f) :=
  decidable_of_iff (f ≠ [] ∧ trim f = f ∧ '\t' ∉ f ∧
      f.IsChain fun c d => DocComment.isBlank c = false ∨ DocComment.isBlank d = false)
    ⟨fun ⟨h₁, h₂, h₃, h₄⟩ => ⟨h₁, h₂, h₃, h₄⟩, fun ⟨h₁, h₂, h₃, h₄⟩ => ⟨h₁, h₂, h₃, h₄⟩⟩

/-- A text laid out in columns, each but the first with the gap before it. -/
structure Layout where
  before : Text
  first : Text
  rest : List (Text × Text)
  after : Text
  isBlank_before : isBlank before = true
  isColumn_first : IsColumn first
  isGap_isColumn : ∀ p ∈ rest, IsGap p.1 ∧ IsColumn p.2
  isBlank_after : isBlank after = true

/-- Columns behind a first one, with their gaps. -/
def joined (rest : List (Text × Text)) : Text := rest.flatMap fun p => p.1 ++ p.2

namespace Layout

def text (l : Layout) : Text := l.before ++ (l.first ++ joined l.rest) ++ l.after

def columns (l : Layout) : List Text := l.first :: l.rest.map Prod.snd

end Layout

/-! ### Cutting what was laid out -/

/-- No gap starts in the text: a blank in it is no tab, and no blank stands behind it. -/
def IsUnbroken : Text → Prop
  | [] => True
  | c :: t =>
    (DocComment.isBlank c = true → c ≠ '\t' ∧ ∃ d ∈ t.head?, DocComment.isBlank d = false) ∧
      IsUnbroken t

theorem columnsFrom_cons (c : Char) (t : Text) :
    columnsFrom (c :: t) =
      if (DocComment.isBlank c && (c == '\t' || t.head?.any DocComment.isBlank)) = true then
        [] :: columnsFrom (trimStart t)
      else (columnsFrom t).modifyHead (c :: ·) := by
  conv_lhs => unfold columnsFrom
  rfl

theorem columnsFrom_append_of_isUnbroken {f : Text} (h : IsUnbroken f) (u : Text) :
    columnsFrom (f ++ u) = (columnsFrom u).modifyHead (f ++ ·) := by
  induction f with
  | nil => exact (congrFun List.modifyHead_id _).symm
  | cons c f ih =>
    obtain ⟨hc, hf⟩ := h
    have hgap : (DocComment.isBlank c && (c == '\t' || (f ++ u).head?.any DocComment.isBlank)) =
        false := by
      cases hblank : DocComment.isBlank c with
      | false => rfl
      | true =>
        -- what stands behind the blank is in the column too
        obtain ⟨htab, d, hd, hdblank⟩ := hc hblank
        simp [htab, List.head?_append, Option.mem_def.mp hd, hdblank]
    rw [List.cons_append, columnsFrom_cons, hgap, if_neg Bool.false_ne_true, ih hf,
      List.modifyHead_modifyHead]
    rfl

theorem IsGap.isBlank {g : Text} (h : IsGap g) : isBlank g = true := by
  rcases h with rfl | ⟨-, hblank⟩
  · decide
  · exact hblank

/-- A gap is taken as a whole, with all the blanks there are. -/
theorem columnsFrom_gap_append {g : Text} (hg : IsGap g) {t : Text} (ht : trimStart t = t) :
    columnsFrom (g ++ t) = [] :: columnsFrom t := by
  rcases hg with rfl | ⟨htwo, hblank⟩
  · rw [List.singleton_append, columnsFrom_cons, if_pos (by simp; decide), ht]
  · match g with
    | c :: d :: g =>
      obtain ⟨hc, hg⟩ := Bool.and_eq_true_iff.mp hblank
      have hd := (Bool.and_eq_true_iff.mp hg).1
      rw [List.cons_append, columnsFrom_cons, if_pos (by simp [hc, hd]),
        trimStart_append_of_blank hg, ht]

theorem IsColumn.isBlank_eq {f : Text} (h : IsColumn f) : isBlank f = false := by
  rw [← Bool.not_eq_true, ← trim_eq_nil_iff, h.trim_eq]
  exact h.ne_nil

theorem isUnbroken_iff {f : Text} : IsUnbroken f ↔
    (∀ c ∈ f.getLast?, DocComment.isBlank c = false) ∧ '\t' ∉ f ∧
      f.IsChain fun c d => DocComment.isBlank c = false ∨ DocComment.isBlank d = false := by
  have htab (c : Char) (h : DocComment.isBlank c = true → c ≠ '\t') : '\t' ≠ c := by
    rintro rfl
    exact h (by decide) rfl
  induction f with
  | nil => simp [IsUnbroken]
  | cons c f ih =>
    cases f with
    | nil =>
      cases hc : DocComment.isBlank c with
      | true => simp [IsUnbroken, hc]
      | false => simpa [IsUnbroken, hc] using htab c (by simp [hc])
    | cons d f =>
      rw [List.getLast?_cons_cons, List.isChain_cons_cons]
      constructor
      · rintro ⟨hc, hrest⟩
        obtain ⟨hend, hnotab, hchain⟩ := ih.mp hrest
        refine ⟨hend, ?_, ?_, hchain⟩
        · rw [List.mem_cons, not_or]
          exact ⟨htab c fun hblank => (hc hblank).1, hnotab⟩
        · cases hblank : DocComment.isBlank c with
          | false => exact Or.inl rfl
          | true => simpa using (hc hblank).2
      · rintro ⟨hend, hnotab, hcd, hchain⟩
        obtain ⟨hc, hnotab⟩ := List.ne_and_not_mem_of_not_mem_cons hnotab
        refine ⟨fun hblank => ⟨Ne.symm hc, d, rfl, ?_⟩, ih.mpr ⟨hend, hnotab, hchain⟩⟩
        exact hcd.resolve_left (by simp [hblank])

theorem IsColumn.isUnbroken {f : Text} (h : IsColumn f) : IsUnbroken f :=
  isUnbroken_iff.mpr
    ⟨trimEnd_eq_self_iff.mp (trimEnd_of_trim_eq h.trim_eq), h.tab_notMem, h.single_blanks⟩

theorem isColumn_of_isUnbroken {f : Text} (h : IsUnbroken f) {c : Char} (hc : f.head? = some c)
    (hblank : DocComment.isBlank c = false) : IsColumn f := by
  obtain ⟨hend, htab, hblanks⟩ := isUnbroken_iff.mp h
  have hstart : trimStart f = f := by
    rw [trimStart_eq_self_iff, hc]
    rintro d ⟨⟩
    exact hblank
  refine ⟨?_, ?_, htab, hblanks⟩
  · rintro rfl
    cases hc
  · rw [trim, hstart, trimEnd_eq_self_iff.mpr hend]

theorem columnsFrom_joined {first : Text} (hfirst : IsColumn first) {rest : List (Text × Text)}
    (hrest : ∀ p ∈ rest, IsGap p.1 ∧ IsColumn p.2) :
    columnsFrom (first ++ joined rest) = first :: rest.map Prod.snd := by
  induction rest generalizing first with
  | nil =>
    have hend : columnsFrom [] = [[]] := columnsFrom_of_forall (List.forall_mem_nil _)
    rw [columnsFrom_append_of_isUnbroken hfirst.isUnbroken, joined, List.flatMap_nil, hend,
      List.modifyHead_cons, List.append_nil]
    rfl
  | cons p rest ih =>
    obtain ⟨⟨hgap, hcolumn⟩, hrest⟩ := List.forall_mem_cons.mp hrest
    have hstart : trimStart (p.2 ++ joined rest) = p.2 ++ joined rest := by
      rw [trimStart_append hcolumn.isBlank_eq, trimStart_of_trim_eq hcolumn.trim_eq]
    have hjoined : joined (p :: rest) = p.1 ++ (p.2 ++ joined rest) := by
      rw [joined, List.flatMap_cons, List.append_assoc]
      rfl
    rw [columnsFrom_append_of_isUnbroken hfirst.isUnbroken, hjoined,
      columnsFrom_gap_append hgap hstart, ih hcolumn hrest, List.modifyHead_cons, List.append_nil]
    rfl

theorem trim_joined {first : Text} (hfirst : IsColumn first) {rest : List (Text × Text)}
    (hrest : ∀ p ∈ rest, IsGap p.1 ∧ IsColumn p.2) :
    trim (first ++ joined rest) = first ++ joined rest := by
  induction rest using List.reverseRecOn with
  | nil => simpa [joined] using hfirst.trim_eq
  | append_singleton rest p _ =>
    have hcolumn := (hrest p (by simp)).2
    have hjoined : first ++ joined (rest ++ [p]) = first ++ (joined rest ++ p.1) ++ p.2 := by
      simp [joined]
    rw [hjoined]
    exact trim_append_append hfirst.isBlank_eq hfirst.trim_eq hcolumn.isBlank_eq hcolumn.trim_eq _

/-- The columns of a layout come back from its text. -/
theorem columnsOf_text (l : Layout) : columnsOf l.text = l.columns := by
  rw [columnsOf, Layout.text, trim_append_of_blank l.isBlank_after,
    trim_of_blank_append l.isBlank_before, trim_joined l.isColumn_first l.isGap_isColumn,
    columnsFrom_joined l.isColumn_first l.isGap_isColumn, Layout.columns]

/-! ### Laying out what is cut -/

/-- A text that ends in no blank, laid out from somewhere in a column or before a gap on. -/
structure LaysOut (t first : Text) (rest : List (Text × Text)) : Prop where
  text_eq : t = first ++ joined rest
  isUnbroken_first : IsUnbroken first
  isGap_isColumn : ∀ p ∈ rest, IsGap p.1 ∧ IsColumn p.2

/-- What starts with no blank starts with a column. -/
theorem LaysOut.head?_first {t first : Text} {rest : List (Text × Text)}
    (h : LaysOut t first rest) {c : Char} (hc : t.head? = some c)
    (hblank : DocComment.isBlank c = false) : first.head? = some c := by
  rw [h.text_eq] at hc
  cases first with
  | cons d first => exact hc
  | nil =>
    cases rest with
    | nil => cases hc
    | cons p rest =>
      have hgap := (h.isGap_isColumn p List.mem_cons_self).1
      have hmem : c ∈ p.1 := by
        cases hp : p.1 with
        | nil => simp [IsGap, hp] at hgap
        | cons d g =>
          rw [joined, List.flatMap_cons, hp] at hc
          exact Option.some.inj hc ▸ List.mem_cons_self
      exact absurd hmem (notMem_of_isBlank hgap.isBlank hblank)

theorem exists_laysOut (t : Text) (hend : ∀ c ∈ t.getLast?, DocComment.isBlank c = false) :
    ∃ first rest, LaysOut t first rest := by
  induction t using columnsFrom.induct with
  | case1 => exact ⟨[], [], rfl, trivial, List.forall_mem_nil _⟩
  | case2 c t hgap ih =>
    obtain ⟨hc, hgap⟩ := Bool.and_eq_true_iff.mp hgap
    -- the gap ends, for the text does not end in it
    have hsolid : isBlank t = false := by
      by_contra hblank
      rw [Bool.not_eq_false] at hblank
      have hne : (c :: t).getLast?.isSome = true := List.getLast?_isSome.mpr (List.cons_ne_nil c t)
      obtain ⟨d, hd⟩ := Option.isSome_iff_exists.mp hne
      have hct : isBlank (c :: t) = true := Bool.and_eq_true_iff.mpr ⟨hc, hblank⟩
      exact notMem_of_isBlank hct (hend d hd) (List.mem_of_getLast? hd)
    obtain ⟨b, d, u, hb, hd, rfl⟩ := exists_first_of_not_blank hsolid
    have hdrop : (b ++ d :: u).dropWhile DocComment.isBlank = d :: u :=
      (trimStart_append_of_blank hb _).trans (trimStart_cons_of_not_blank hd u)
    rw [hdrop] at ih
    rw [← List.cons_append, List.getLast?_append_of_ne_nil _ (List.cons_ne_nil d u)] at hend
    obtain ⟨first, rest, hrest⟩ := ih hend
    have hcolumn := isColumn_of_isUnbroken hrest.isUnbroken_first (hrest.head?_first rfl hd) hd
    refine ⟨[], (c :: b, first) :: rest, ?_, trivial, ?_⟩
    · rw [hrest.text_eq]
      simp [joined]
    · refine List.forall_mem_cons.mpr ⟨⟨?_, hcolumn⟩, hrest.isGap_isColumn⟩
      cases b with
      | nil => exact Or.inl (by simpa [hd] using hgap)
      | cons e b => exact Or.inr ⟨by simp, Bool.and_eq_true_iff.mpr ⟨hc, hb⟩⟩
  | case3 c t hgap ih =>
    have hrest : ∀ d ∈ t.getLast?, DocComment.isBlank d = false := by
      cases t with
      | nil => simp
      | cons d t => rwa [List.getLast?_cons_cons] at hend
    obtain ⟨first, rest, hlays⟩ := ih hrest
    refine ⟨c :: first, rest, congrArg (c :: ·) hlays.text_eq, ⟨fun hc => ?_, ?_⟩,
      hlays.isGap_isColumn⟩
    · -- a blank that starts no gap, so the text goes on behind it
      cases t with
      | nil => simp [hc] at hend
      | cons d t =>
        obtain ⟨htab, hd⟩ : c ≠ '\t' ∧ DocComment.isBlank d = false := by simpa [hc] using hgap
        exact ⟨htab, d, hlays.head?_first rfl hd, hd⟩
    · exact hlays.isUnbroken_first

/-- Every text that is not blank is laid out in columns. -/
theorem exists_layout {t : Text} (h : isBlank t = false) : ∃ l : Layout, l.text = t := by
  obtain ⟨b, c, u, hb, hc, rfl⟩ := exists_first_of_not_blank h
  obtain ⟨b', hb', hend⟩ := exists_trimEnd_append (c :: u)
  rw [trimEnd_cons_of_not_blank hc] at hend
  obtain ⟨first, rest, hlays⟩ := exists_laysOut (c :: trimEnd u) (by
    rw [← trimEnd_cons_of_not_blank hc]
    exact trimEnd_eq_self_iff.mp (trimEnd_trimEnd _))
  have hfirst := isColumn_of_isUnbroken hlays.isUnbroken_first (hlays.head?_first rfl hc) hc
  refine ⟨⟨b, first, rest, b', hb, hfirst, hlays.isGap_isColumn, hb'⟩, ?_⟩
  rw [Layout.text, ← hlays.text_eq, List.append_assoc, ← hend]

theorem Layout.isColumn (l : Layout) : ∀ f ∈ l.columns, IsColumn f := by
  refine List.forall_mem_cons.mpr ⟨l.isColumn_first, List.forall_mem_map.mpr fun p hp => ?_⟩
  exact (l.isGap_isColumn p hp).2

end Text

/-! ### The columns of a tag -/

open Text

theorem exists_layout_columns {s : String} (h : Text.isBlank s.toList = false) :
    ∃ l : Layout, l.text = s.toList ∧ columns s = l.columns.map String.ofList := by
  obtain ⟨l, hl⟩ := exists_layout h
  refine ⟨l, hl, ?_⟩
  rw [columns, ← hl, columnsOf_text]

theorem isColumn_of_mem_columns {s : String} (h : Text.isBlank s.toList = false) {f : String}
    (hf : f ∈ columns s) : IsColumn f.toList := by
  obtain ⟨l, -, hl⟩ := exists_layout_columns h
  rw [hl] at hf
  obtain ⟨t, ht, rfl⟩ := List.mem_map.mp hf
  rw [String.toList_ofList]
  exact l.isColumn t ht

theorem empty_notMem_columns {s : String} (h : Text.isBlank s.toList = false) : "" ∉ columns s :=
  fun hmem => (isColumn_of_mem_columns h hmem).ne_nil rfl

/-- **Cutting into columns and laying out are inverse.**  Every text has a first column.  The
columns of a layout come back from its text, and every text that is not blank is the text of a
layout, so that its columns are such as a layout may have.  No tag is read with an empty column:
neither where the inline text counts only if it is not blank, nor in what a comment has beside its
tags. -/
theorem columns_layout :
    (∀ s, columns s ≠ []) ∧
      (∀ l : Layout, columns (String.ofList l.text) = l.columns.map String.ofList) ∧
      (∀ s : String, Text.isBlank s.toList = false →
        (∃ l : Layout, l.text = s.toList) ∧ ∀ f ∈ columns s, IsColumn f.toList) ∧
      (∀ (e : Entry) s, e.inlineText? = some s → "" ∉ columns s) ∧
      ∀ comment, ∀ p ∈ Comment.entries comment, ∀ e ∈ p.2, ∀ s, e.inline = some s →
        "" ∉ columns s := by
  refine ⟨columns_ne_nil, fun l => ?_, fun s hs => ⟨exists_layout hs, ?_⟩, ?_, ?_⟩
  · rw [columns, String.toList_ofList, columnsOf_text]
  · exact fun f hf => isColumn_of_mem_columns hs hf
  · intro e s hs
    obtain ⟨text, -, htext, rfl⟩ := Tag.inlineText?_eq_some_iff.mp hs
    refine empty_notMem_columns ?_
    rw [String.toList_ofList, ← Bool.not_eq_true, ← trim_eq_nil_iff, trim_trim]
    exact htext
  · intro comment p hp e he s hs
    have hmem := Entries.mem_of_mem_ofList hp he
    exact empty_notMem_columns (Comment.isBlank_inline_of_mem_sectionsOf hmem hs)

/-- ` a b`, a tab with two more blanks behind it, `c`, a tab, `d` and the end of a line. -/
def layoutSample : Layout where
  before := [' ']
  first := "a b".toList
  rest := [(['\t', ' ', '\u00a0'], ['c']), (['\t'], ['d'])]
  after := ['\n']
  isBlank_before := by decide
  isColumn_first := by decide
  isGap_isColumn := by decide
  isBlank_after := by decide

theorem columns_layout_sample :
    columns " a b\t \u00a0c\td\n" = ["a b", "c", "d"] ∧
      (∀ f ∈ ["a b", "c", "d"], IsColumn f.toList) ∧
      Entry.inlineText? ⟨"see", some "a  b ", []⟩ = some "a  b" ∧ "" ∉ columns "a  b" ∧
      Comment.entries "/** @see c\td */" = [("see", [⟨"see", some "c\td", []⟩])] ∧
      "" ∉ columns "c\td" := by
  obtain ⟨-, hback, hsolid, hread, hcomment⟩ := columns_layout
  have hcolumns : columns " a b\t \u00a0c\td\n" = ["a b", "c", "d"] := hback layoutSample
  have hinline : Entry.inlineText? ⟨"see", some "a  b ", []⟩ = some "a  b" := by decide
  have hentries : Comment.entries "/** @see c\td */" = [("see", [⟨"see", some "c\td", []⟩])] := by
    decide +kernel
  have hcut := (hsolid " a b\t \u00a0c\td\n" (by decide)).2
  rw [hcolumns] at hcut
  refine ⟨hcolumns, hcut, hinline, hread _ _ hinline, hentries, ?_⟩
  exact hcomment "/** @see c\td */" _ (hentries ▸ List.mem_singleton_self _) _
    (List.mem_singleton_self _) "c\td" rfl

end DocComment
