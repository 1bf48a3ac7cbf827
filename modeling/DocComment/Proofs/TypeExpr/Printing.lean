/-
Printing types, and reading what was printed.

A type is printed as its name, with its arguments in angle brackets if it has any; a union is
printed with bars between its members.  What is printed stands whole among others of its kind
(`IsWhole`): neither a bar nor a comma of the outside cuts it, and trimming takes nothing from it.
So:

* `members_intercalate`, `splitTop_commaSeparated` — the parts of a printed union and of printed
  arguments are what was joined;
* `memberOf_print` — a printed type is read as that type, by induction over the tree;
* `parse_printUnion` — a printed union is read as its members, with braces around it or without.
-/
import DocComment.Proofs.Text.Cut
import DocComment.Proofs.TypeExpr.Reading

namespace DocComment.TypeExpr

/-- A name that a type can be printed with. -/
structure IsName (s : String) : Prop where
  ne_empty : s ≠ ""
  trim_eq : Text.trim s.toList = s.toList
  notMem : ∀ c ∈ s.toList, c ∉ "<>()[]\x7b\x7d|,".toList

mutual

/-- A type as text. -/
def print : TypeExpr → String
  | mk name [] => name
  | mk name (t :: ts) => name ++ "<" ++ ", ".intercalate (print t :: printAll ts) ++ ">"

def printAll : List TypeExpr → List String
  | [] => []
  | t :: ts => print t :: printAll ts

end

/-- The members of a union as text. -/
def printUnion (types : List TypeExpr) : String := "|".intercalate (types.map print)

theorem printAll_eq_map (ts : List TypeExpr) : printAll ts = ts.map print := by
  induction ts with
  | nil => rfl
  | cons t ts ih => rw [printAll, ih, List.map_cons]

/-- The texts that types are printed as. -/
def texts (ts : List TypeExpr) : List Text := ts.map fun t => t.print.toList

theorem texts_ne_nil (t : TypeExpr) (ts : List TypeExpr) : texts (t :: ts) ≠ [] :=
  List.cons_ne_nil _ _

/-- Parts with a comma and a space between each two. -/
def commaSeparated (ps : List Text) : Text := [',', ' '].intercalate ps

theorem toList_print_applied (name : String) (t : TypeExpr) (ts : List TypeExpr) :
    (mk name (t :: ts)).print.toList =
      name.toList ++ '<' :: (commaSeparated (texts (t :: ts)) ++ ['>']) := by
  simp [print, printAll_eq_map, String.toList_intercalate, commaSeparated, texts, Function.comp_def]

theorem toList_printUnion (ts : List TypeExpr) :
    (printUnion ts).toList = ['|'].intercalate (texts ts) := by
  rw [printUnion, String.toList_intercalate, List.map_map]
  rfl

/-! ### Names -/

namespace IsName

variable {s : String} (h : IsName s)
include h

theorem isPlain {c : Char} (hc : c ∈ s.toList) :
    isOpening c = false ∧ isClosing c = false ∧ c ≠ '|' ∧ c ≠ ',' := by
  have hnot := h.notMem c hc
  simp only [isOpening, isClosing]
  simp_all

theorem isBlank_eq_false : Text.isBlank s.toList = false := by
  rw [← Bool.not_eq_true, ← Text.trim_eq_nil_iff, h.trim_eq, String.toList_eq_nil_iff]
  exact h.ne_empty

theorem isNested : IsNested s.toList :=
  isNested_of_forall fun _ hc => ⟨(h.isPlain hc).1, (h.isPlain hc).2.1⟩

theorem isUncut {sep : Char} (hsep : sep = '|' ∨ sep = ',') : IsUncut sep s.toList := by
  refine isUncut_of_forall fun c hc => ?_
  obtain ⟨hopen, hclose, hbar, hcomma⟩ := h.isPlain hc
  rcases hsep with rfl | rfl
  · exact ⟨hopen, hclose, hbar⟩
  · exact ⟨hopen, hclose, hcomma⟩

end IsName

/-! ### Texts that stand whole among others -/

/-- The text is one part of a union and of a list of arguments, and stands in no braces. -/
structure IsWhole (t : Text) : Prop where
  isNested : IsNested t
  isUncut : ∀ sep, sep = '|' ∨ sep = ',' → IsUncut sep t
  isBlank_eq_false : Text.isBlank t = false
  trim_eq : Text.trim t = t
  notMem_brace : '\x7b' ∉ t

theorem IsName.isWhole {s : String} (h : IsName s) : IsWhole s.toList where
  isNested := h.isNested
  isUncut _ := h.isUncut
  isBlank_eq_false := h.isBlank_eq_false
  trim_eq := h.trim_eq
  notMem_brace hmem := h.notMem _ hmem (by decide)

/-- Whole texts put together have no blank at either end. -/
theorem trim_intercalate {sep : Text} {ps : List Text} (h : ∀ p ∈ ps, IsWhole p) (hne : ps ≠ []) :
    Text.isBlank (sep.intercalate ps) = false ∧
      Text.trim (sep.intercalate ps) = sep.intercalate ps := by
  induction ps with
  | nil => exact absurd rfl hne
  | cons p ps ih =>
    obtain ⟨hp, hps⟩ := List.forall_mem_cons.mp h
    cases ps with
    | nil => simpa using ⟨hp.isBlank_eq_false, hp.trim_eq⟩
    | cons q qs =>
      obtain ⟨hblank, htrim⟩ := ih hps (List.cons_ne_nil q qs)
      rw [List.intercalate_cons_cons]
      exact ⟨by simp [hp.isBlank_eq_false],
        Text.trim_append_append hp.isBlank_eq_false hp.trim_eq hblank htrim sep⟩

theorem notMem_intercalate {c : Char} {sep : Text} (hsep : c ∉ sep) {ps : List Text}
    (h : ∀ p ∈ ps, c ∉ p) : c ∉ sep.intercalate ps := by
  refine forall_intercalate (P := fun t => c ∉ t) List.not_mem_nil ?_ hsep h
  intro t u ht hu
  rw [List.mem_append, not_or]
  exact ⟨ht, hu⟩

theorem isNested_commaSeparated {ps : List Text} (h : ∀ p ∈ ps, IsWhole p) :
    IsNested (commaSeparated ps) :=
  isNested_intercalate (by decide) fun p hp => (h p hp).isNested

/-- A name with whole arguments is whole. -/
theorem IsName.isWhole_applied {s : String} (h : IsName s) {ps : List Text}
    (hps : ∀ p ∈ ps, IsWhole p) : IsWhole (s.toList ++ '<' :: (commaSeparated ps ++ ['>'])) where
  isNested := h.isNested.append (IsNested.bracketed (isNested_commaSeparated hps) (c := '>') rfl)
  isUncut sep hsep := by
    -- a comma or a bar of the arguments stands inside of the angle brackets
    have harguments : IsUncut sep ('<' :: (commaSeparated ps ++ ['>'])) :=
      isUncut_bracketed (isNested_commaSeparated hps) (c := '>') rfl sep
    exact (h.isUncut hsep).append harguments
  isBlank_eq_false := by simp [h.isBlank_eq_false]
  trim_eq := by
    have htrim := Text.trim_append_append h.isBlank_eq_false h.trim_eq
      (u := ['>']) rfl rfl ('<' :: commaSeparated ps)
    simpa using htrim
  notMem_brace := by
    have harguments : '\x7b' ∉ commaSeparated ps :=
      notMem_intercalate (by decide) fun p hp => (hps p hp).notMem_brace
    simp [h.isWhole.notMem_brace, harguments]

mutual

theorem isWhole_print : ∀ t : TypeExpr, (∀ n ∈ names t, IsName n) → IsWhole t.print.toList
  | mk name [], h => (h name List.mem_cons_self).isWhole
  | mk name (t :: ts), h => by
    rw [toList_print_applied]
    exact (h name List.mem_cons_self).isWhole_applied
      (isWhole_texts (t :: ts) fun n hn => h n (List.mem_cons_of_mem name hn))

theorem isWhole_texts : ∀ ts : List TypeExpr, (∀ n ∈ namesIn ts, IsName n) →
    ∀ p ∈ texts ts, IsWhole p
  | [], _ => fun _ hp => absurd hp List.not_mem_nil
  | t :: ts, h =>
    List.forall_mem_cons.mpr
      ⟨isWhole_print t fun n hn => h n (List.mem_append_left _ hn),
        isWhole_texts ts fun n hn => h n (List.mem_append_right _ hn)⟩

end

/-! ### Parts of what was printed -/

theorem members_intercalate {ps : List Text} (h : ∀ p ∈ ps, IsWhole p) :
    members (['|'].intercalate ps) = ps := by
  by_cases hne : ps = []
  · rw [hne]
    rfl
  · have hkept : (ps.filter fun p => !Text.isBlank p) = ps :=
      List.filter_eq_self.mpr fun p hp => by simp [(h p hp).isBlank_eq_false]
    have htrim : ps.map Text.trim = ps :=
      (List.map_congr_left fun p hp => (h p hp).trim_eq).trans (List.map_id ps)
    have hcut : splitTop '|' (['|'].intercalate ps) = ps :=
      splitTop_intercalate rfl rfl hne fun p hp => (h p hp).isUncut '|' (.inl rfl)
    rw [members, hcut, hkept, htrim]

theorem commaSeparated_cons (p : Text) (ps : List Text) :
    commaSeparated (p :: ps) = [','].intercalate (p :: ps.map (' ' :: ·)) := by
  rw [commaSeparated]
  induction ps generalizing p with
  | nil => simp
  | cons q qs ih =>
    rw [List.intercalate_cons_cons, ih, List.map_cons, List.intercalate_cons_cons]
    cases qs with
    | nil => simp
    | cons => simp [List.intercalate_cons_cons]

theorem splitTop_commaSeparated {ps : List Text} (hne : ps ≠ []) (h : ∀ p ∈ ps, IsWhole p) :
    (splitTop ',' (commaSeparated ps)).map Text.trim = ps := by
  obtain ⟨p, ps, rfl⟩ := List.exists_cons_of_ne_nil hne
  obtain ⟨hp, hps⟩ := List.forall_mem_cons.mp h
  have hspace : IsUncut ',' [' '] := isUncut_of_forall (List.forall_mem_singleton.mpr (by decide))
  have hparts : ∀ q ∈ p :: ps.map (' ' :: ·), IsUncut ',' q := by
    refine List.forall_mem_cons.mpr ⟨hp.isUncut ',' (.inr rfl), List.forall_mem_map.mpr ?_⟩
    exact fun q hq => hspace.append ((hps q hq).isUncut ',' (.inr rfl))
  rw [commaSeparated_cons, splitTop_intercalate rfl rfl (List.cons_ne_nil _ _) hparts,
    List.map_cons, hp.trim_eq, List.map_map]
  congr 1
  refine (List.map_congr_left fun q hq => ?_).trans (List.map_id ps)
  exact (Text.trim_of_blank_append (b := [' ']) rfl q).trans (hps q hq).trim_eq

/-! ### The form of what was printed -/

theorem IsName.head?_ne {s : String} (h : IsName s) (t : Text) :
    (s.toList ++ t).head? ≠ some '(' := by
  obtain ⟨c, r, hs⟩ := List.exists_cons_of_ne_nil
    (fun hnil => h.ne_empty (String.toList_eq_nil_iff.mp hnil))
  have hc : c ≠ '(' := by
    have hopen := (h.isPlain (c := c) (hs ▸ List.mem_cons_self)).1
    rintro rfl
    exact absurd hopen (by decide)
  rw [hs]
  simpa using hc

theorem IsName.beq_angle {s : String} (h : IsName s) : ∀ c ∈ s.toList, (c == '<') = false := by
  intro c hc
  have hopen := (h.isPlain hc).1
  rw [beq_eq_false_iff_ne]
  rintro rfl
  exact absurd hopen (by decide)

theorem IsName.formOf_eq {s : String} (h : IsName s) : formOf s.toList = .plain := by
  have hlast : s.toList.getLast? ≠ some ']' := by
    intro hlast
    have hclose := (h.isPlain (List.mem_of_getLast? hlast)).2.1
    exact absurd hclose (by decide)
  have hhead := h.head?_ne []
  rw [List.append_nil] at hhead
  rw [formOf, show "[]".toList = ['['] ++ [']'] from rfl, Text.before?_concat_eq_none hlast,
    between?_eq_none hhead, Text.cutAt?_eq_none_iff.mpr h.beq_angle]

theorem IsName.formOf_applied {s : String} (h : IsName s) (t : Text) :
    formOf (s.toList ++ '<' :: (t ++ ['>'])) = .applied s.toList t := by
  have hlast : (s.toList ++ '<' :: (t ++ ['>'])).getLast? ≠ some ']' := by
    rw [← List.cons_append, ← List.append_assoc, List.getLast?_concat]
    decide
  have hclose : Text.before? ">".toList (t ++ ['>']) = some t := Text.before?_eq_some_iff.mpr rfl
  rw [formOf, show "[]".toList = ['['] ++ [']'] from rfl, Text.before?_concat_eq_none hlast,
    between?_eq_none (h.head?_ne _), Text.cutAt?_append_cons h.beq_angle rfl]
  simp only [hclose, h.trim_eq]

/-! ### Reading -/

/-- A whole text is the only member of itself. -/
theorem IsWhole.unionOf_eq {t : Text} (h : IsWhole t) : unionOf t = [memberOf t] := by
  have hmembers : members (['|'].intercalate [t]) = [t] := members_intercalate (by simpa using h)
  rw [List.intercalate_singleton] at hmembers
  rw [TypeExpr.unionOf_eq, hmembers, List.map_singleton]

mutual

/-- A printed type is read as that type. -/
theorem memberOf_print : ∀ t : TypeExpr, (∀ n ∈ names t, IsName n) → memberOf t.print.toList = t
  | mk name [], h => by
    have hname : IsName name := h name List.mem_cons_self
    have hprint : (mk name []).print = name := rfl
    rw [hprint, memberOf_eq, hname.formOf_eq, Form.name, Form.parts, String.ofList_toList,
      List.flatMap_nil]
  | mk name (t :: ts), h => by
    have hname : IsName name := h name List.mem_cons_self
    have hnames : ∀ n ∈ namesIn (t :: ts), IsName n :=
      fun n hn => h n (List.mem_cons_of_mem name hn)
    rw [toList_print_applied, memberOf_eq, hname.formOf_applied, Form.name, Form.parts,
      String.ofList_toList, splitTop_commaSeparated (texts_ne_nil t ts) (isWhole_texts _ hnames),
      flatMap_unionOf_texts (t :: ts) hnames]

theorem flatMap_unionOf_texts : ∀ ts : List TypeExpr, (∀ n ∈ namesIn ts, IsName n) →
    (texts ts).flatMap unionOf = ts
  | [], _ => rfl
  | t :: ts, h => by
    have ht : ∀ n ∈ names t, IsName n := fun n hn => h n (List.mem_append_left _ hn)
    have hts : ∀ n ∈ namesIn ts, IsName n := fun n hn => h n (List.mem_append_right _ hn)
    rw [texts, List.map_cons, List.flatMap_cons, (isWhole_print t ht).unionOf_eq,
      memberOf_print t ht, List.singleton_append, ← texts, flatMap_unionOf_texts ts hts]

end

theorem map_memberOf_texts {ts : List TypeExpr} (h : ∀ n ∈ namesIn ts, IsName n) :
    (texts ts).map memberOf = ts := by
  rw [texts, List.map_map]
  refine (List.map_congr_left fun t ht => ?_).trans (List.map_id ts)
  exact memberOf_print t fun n hn => h n (mem_namesIn.mpr ⟨t, ht, hn⟩)

theorem unionOf_printUnion {ts : List TypeExpr} (h : ∀ n ∈ namesIn ts, IsName n) :
    unionOf (printUnion ts).toList = ts := by
  rw [toList_printUnion, unionOf_eq, members_intercalate (isWhole_texts ts h), map_memberOf_texts h]

theorem isNested_printUnion {ts : List TypeExpr} (h : ∀ n ∈ namesIn ts, IsName n) :
    IsNested (printUnion ts).toList := by
  rw [toList_printUnion]
  exact isNested_intercalate (by decide) fun p hp => (isWhole_texts ts h p hp).isNested

theorem trim_printUnion {ts : List TypeExpr} (h : ∀ n ∈ namesIn ts, IsName n) :
    Text.trim (printUnion ts).toList = (printUnion ts).toList := by
  rw [toList_printUnion]
  by_cases hne : texts ts = []
  · rw [hne]
    rfl
  · exact (trim_intercalate (isWhole_texts ts h) hne).2

theorem bare_printUnion {ts : List TypeExpr} (h : ∀ n ∈ namesIn ts, IsName n) :
    TypeUnion.bare (printUnion ts).toList = (printUnion ts).toList := by
  have hbrace : (printUnion ts).toList.head? ≠ some '\x7b' := by
    intro hhead
    have hmem := List.mem_of_head? hhead
    rw [toList_printUnion] at hmem
    exact notMem_intercalate (by decide) (fun p hp => (isWhole_texts ts h p hp).notMem_brace) hmem
  rw [TypeUnion.bare, trim_printUnion h, between?_eq_none hbrace, Option.getD_none,
    trim_printUnion h]

theorem bare_braced_printUnion {ts : List TypeExpr} (h : ∀ n ∈ namesIn ts, IsName n) :
    TypeUnion.bare ('\x7b' :: ((printUnion ts).toList ++ ['\x7d'])) = (printUnion ts).toList := by
  rw [bare_braced, trim_printUnion h]

/-- **Reading undoes printing.**  A union of types over names that are trimmed, not empty and free
of brackets, bars and commas is read from its printed text, in braces or not, as exactly these
types, and the text is kept. -/
theorem parse_printUnion (types : List TypeExpr) (h : ∀ n ∈ namesIn types, IsName n) :
    TypeUnion.parse (printUnion types) = .ok ⟨printUnion types, types⟩ ∧
    TypeUnion.parse ("\x7b" ++ printUnion types ++ "\x7d") = .ok ⟨printUnion types, types⟩ := by
  have hread : isBalanced (printUnion types).toList = true :=
    isBalanced_iff.mpr (isNested_printUnion h)
  have hbraces : ("\x7b" ++ printUnion types ++ "\x7d").toList =
      '\x7b' :: ((printUnion types).toList ++ ['\x7d']) := by simp
  constructor
  · simp only [TypeUnion.parse, bare_printUnion h, hread, if_true, unionOf_printUnion h,
      String.ofList_toList]
  · simp only [TypeUnion.parse, hbraces, bare_braced_printUnion h, hread, if_true,
      unionOf_printUnion h, String.ofList_toList]

/-- `a b|Map<K, Array<é>>` -/
def printedSample : List TypeExpr :=
  [mk "a b" [], mk "Map" [mk "K" [], mk "Array" [mk "é" []]]]

theorem parse_printUnion_printedSample :
    (∀ n ∈ namesIn printedSample, IsName n) ∧ printUnion printedSample = "a b|Map<K, Array<é>>" ∧
      TypeUnion.parse "a b|Map<K, Array<é>>" = .ok ⟨"a b|Map<K, Array<é>>", printedSample⟩ ∧
      TypeUnion.parse "\x7ba b|Map<K, Array<é>>\x7d" =
        .ok ⟨"a b|Map<K, Array<é>>", printedSample⟩ := by
  have hnames : ∀ n ∈ namesIn printedSample, IsName n := by
    simp only [printedSample, namesIn, names, List.append_nil, List.cons_append, List.nil_append,
      List.forall_mem_cons]
    and_intros
    all_goals first | exact ⟨by decide, by decide, by simp⟩ | simp
  have hprint : printUnion printedSample = "a b|Map<K, Array<é>>" := by decide
  have hread := parse_printUnion printedSample hnames
  rw [hprint] at hread
  exact ⟨hnames, hprint, hread⟩

end DocComment.TypeExpr
