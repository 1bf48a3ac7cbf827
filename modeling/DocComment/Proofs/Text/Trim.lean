/-
What trimming does to a text put together from parts.

* `trimStart_append`, `trimEnd_append` — a part that is not blank shields what stands behind it;
* `trimStart_trimEnd` — the two ends are independent, so a text may be trimmed in either order;
* `trim_append_of_blank`, `trim_of_blank_append` — blanks at an end do not count;
* `infix_trim` — a stretch without a blank at its ends is kept whole;
* `trim_trim` — a trimmed text is left as it is.
-/
import DocComment.Text.Blank

namespace DocComment.Text

@[simp] theorem isBlank_append (a b : Text) : isBlank (a ++ b) = (isBlank a && isBlank b) :=
  List.all_append

@[simp] theorem isBlank_reverse (t : Text) : isBlank t.reverse = isBlank t := List.all_reverse

theorem notMem_of_isBlank {b : Text} (h : isBlank b = true) {c : Char}
    (hc : DocComment.isBlank c = false) : c ∉ b := by
  intro hmem
  rw [List.all_eq_true.mp h c hmem] at hc
  cases hc

theorem isBlank_of_forall_isIndent {b : Text} (h : ∀ c ∈ b, isIndent c = true) :
    isBlank b = true :=
  List.all_eq_true.mpr fun c hc => isBlank_of_isIndent (h c hc)

theorem trimStart_append {t : Text} (h : isBlank t = false) (u : Text) :
    trimStart (t ++ u) = trimStart t ++ u := by
  have hne : trimStart t ≠ [] := by
    intro hnil
    rw [trimStart_eq_nil_iff.mp hnil] at h
    exact absurd h (by simp)
  rw [trimStart, List.dropWhile_append, if_neg]
  · rfl
  · rw [List.isEmpty_iff]
    exact hne

theorem trimEnd_append_of_blank {b : Text} (h : isBlank b = true) (t : Text) :
    trimEnd (t ++ b) = trimEnd t := by
  rw [trimEnd, trimEnd, List.reverse_append, trimStart_append_of_blank (by simpa using h)]

theorem trimEnd_append {u : Text} (h : isBlank u = false) (t : Text) :
    trimEnd (t ++ u) = t ++ trimEnd u := by
  rw [trimEnd, trimEnd, List.reverse_append, trimStart_append (by simpa using h)]
  simp

/-- What ends in no blank shields itself. -/
theorem trimEnd_append_of_trimEnd_eq {a : Text} (h : trimEnd a = a) (u : Text) :
    trimEnd (a ++ u) = a ++ trimEnd u := by
  by_cases hu : isBlank u = true
  · have hnil : trimEnd u = [] := by rw [trimEnd, (trimStart_eq_nil_iff).mpr (by simpa using hu)]; rfl
    rw [trimEnd_append_of_blank hu, h, hnil, List.append_nil]
  · exact trimEnd_append (by simpa using hu) a

theorem trimEnd_eq_nil_iff {t : Text} : trimEnd t = [] ↔ isBlank t = true := by
  rw [trimEnd, List.reverse_eq_nil_iff, trimStart_eq_nil_iff, isBlank_reverse]

theorem trimEnd_cons_of_not_blank {c : Char} (h : DocComment.isBlank c = false) (t : Text) :
    trimEnd (c :: t) = c :: trimEnd t := by
  by_cases ht : isBlank t = true
  · rw [show c :: t = [c] ++ t from rfl, trimEnd_append_of_blank ht, trimEnd_eq_nil_iff.mpr ht]
    simp [trimEnd, trimStart, h]
  · rw [show c :: t = [c] ++ t from rfl, trimEnd_append (by simpa using ht)]
    rfl

@[simp] theorem isBlank_trimStart (t : Text) : isBlank (trimStart t) = isBlank t := by
  induction t with
  | nil => rfl
  | cons c t ih =>
    by_cases hc : DocComment.isBlank c = true
    · rw [show c :: t = [c] ++ t from rfl, trimStart_append_of_blank (by simpa [isBlank] using hc),
        ih]
      simp [isBlank, hc]
    · rw [trimStart_cons_of_not_blank (by simpa using hc)]

/-- A text that is not blank begins with blanks and goes on with a character that is none. -/
theorem exists_first_of_not_blank {t : Text} (h : isBlank t = false) :
    ∃ b c u, isBlank b = true ∧ DocComment.isBlank c = false ∧ t = b ++ c :: u := by
  induction t with
  | nil => simp [isBlank] at h
  | cons c t ih =>
    by_cases hc : DocComment.isBlank c = true
    · obtain ⟨b, d, u, hb, hd, rfl⟩ := ih (by simpa [isBlank, hc] using h)
      refine ⟨c :: b, d, u, ?_, hd, rfl⟩
      simpa [isBlank, hc] using hb
    · exact ⟨[], c, t, rfl, by simpa using hc, rfl⟩

/-- Trimming may start at either end. -/
theorem trimStart_trimEnd (t : Text) : trimStart (trimEnd t) = trim t := by
  by_cases ht : isBlank t = true
  · rw [trim, trimEnd_eq_nil_iff.mpr ht, trimStart_eq_nil_iff.mpr ht]
    rfl
  · obtain ⟨b, c, u, hb, hc, rfl⟩ := exists_first_of_not_blank (by simpa using ht)
    have hcu : isBlank (c :: u) = false := by simp [isBlank, hc]
    rw [trim, trimStart_append_of_blank hb, trimStart_cons_of_not_blank hc, trimEnd_append hcu,
      trimStart_append_of_blank hb, trimEnd_cons_of_not_blank hc, trimStart_cons_of_not_blank hc]

/-- Blanks at the end are all that `trimEnd` takes away. -/
theorem exists_trimEnd_append (t : Text) : ∃ b, isBlank b = true ∧ t = trimEnd t ++ b := by
  refine ⟨(t.reverse.takeWhile DocComment.isBlank).reverse, ?_, ?_⟩
  · rw [isBlank_reverse, isBlank]
    exact List.all_takeWhile
  · rw [trimEnd, trimStart, ← List.reverse_append, List.takeWhile_append_dropWhile,
      List.reverse_reverse]

theorem trim_append_of_blank {b : Text} (h : isBlank b = true) (t : Text) :
    trim (t ++ b) = trim t := by
  rw [← trimStart_trimEnd, trimEnd_append_of_blank h, trimStart_trimEnd]

theorem trim_of_blank_append {b : Text} (h : isBlank b = true) (t : Text) :
    trim (b ++ t) = trim t := by
  rw [trim, trimStart_append_of_blank h, trim]

theorem trim_cons_of_not_blank {c : Char} (h : DocComment.isBlank c = false) (t : Text) :
    trim (c :: t) = c :: trimEnd t := by
  rw [trim, trimStart_cons_of_not_blank h, trimEnd_cons_of_not_blank h]

theorem trim_eq_nil_iff {t : Text} : trim t = [] ↔ isBlank t = true := by
  rw [trim, trimEnd_eq_nil_iff, isBlank_trimStart]

theorem trimStart_trimStart (t : Text) : trimStart (trimStart t) = trimStart t := by
  by_cases ht : isBlank t = true
  · rw [trimStart_eq_nil_iff.mpr ht]
    rfl
  · obtain ⟨b, c, u, hb, hc, rfl⟩ := exists_first_of_not_blank (by simpa using ht)
    rw [trimStart_append_of_blank hb, trimStart_cons_of_not_blank hc,
      trimStart_cons_of_not_blank hc]

theorem trimStart_eq_self_iff {t : Text} :
    trimStart t = t ↔ ∀ c ∈ t.head?, DocComment.isBlank c = false := by
  cases t with
  | nil => simp [trimStart]
  | cons c t =>
    constructor
    · intro h d hd
      cases hd
      cases hc : DocComment.isBlank c with
      | false => rfl
      | true =>
        have hshort := length_trimStart_le t
        have hdrop : trimStart (c :: t) = trimStart t :=
          trimStart_append_of_blank (b := [c]) (by simp [isBlank, hc]) t
        rw [← hdrop, h, List.length_cons] at hshort
        omega
    · intro h
      exact trimStart_cons_of_not_blank (h c rfl) t

theorem trimEnd_eq_self_iff {t : Text} :
    trimEnd t = t ↔ ∀ c ∈ t.getLast?, DocComment.isBlank c = false := by
  rw [trimEnd, ← List.reverse_inj, List.reverse_reverse, trimStart_eq_self_iff, List.head?_reverse]

theorem trimEnd_trimEnd (t : Text) : trimEnd (trimEnd t) = trimEnd t := by
  simp [trimEnd, trimStart_trimStart]

theorem trimStart_of_trim_eq {t : Text} (h : trim t = t) : trimStart t = t := by
  rw [← h, ← trimStart_trimEnd, trimStart_trimStart]

theorem trimEnd_of_trim_eq {t : Text} (h : trim t = t) : trimEnd t = t := by
  rw [← h, trim, trimEnd_trimEnd]

/-- A trimmed last part that is not blank stays whole. -/
theorem trim_append_of_trim_eq {u : Text} (hu : isBlank u = false) (htrim : trim u = u)
    (t : Text) : trim (t ++ u) = trimStart t ++ u := by
  by_cases ht : isBlank t = true
  · rw [trim_of_blank_append ht, htrim, trimStart_eq_nil_iff.mpr ht]
    rfl
  · rw [← trimStart_trimEnd, trimEnd_append hu, trimEnd_of_trim_eq htrim,
      trimStart_append (by simpa using ht)]

/-- What begins and ends with trimmed parts that are not blank stays whole. -/
theorem trim_append_append {t u : Text} (ht : isBlank t = false) (htrim : trim t = t)
    (hu : isBlank u = false) (hutrim : trim u = u) (v : Text) :
    trim (t ++ v ++ u) = t ++ v ++ u := by
  rw [trim_append_of_trim_eq hu hutrim, trimStart_append ht, trimStart_of_trim_eq htrim]

theorem trim_trimEnd (t : Text) : trim (trimEnd t) = trim t := by
  rw [← trimStart_trimEnd, trimEnd_trimEnd, trimStart_trimEnd]

theorem trim_trimStart (t : Text) : trim (trimStart t) = trim t := by
  rw [trim, trimStart_trimStart, trim]

@[simp] theorem trim_trim (t : Text) : trim (trim t) = trim t := by
  rw [trim.eq_def t, trim_trimEnd, trim_trimStart, trim]

theorem prefix_trimEnd_iff {w : Text} (hw : trimEnd w = w) {t : Text} : w <+: trimEnd t ↔ w <+: t := by
  constructor
  · intro h
    obtain ⟨b, -, ht⟩ := exists_trimEnd_append t
    rw [ht]
    exact h.trans (List.prefix_append _ b)
  · rintro ⟨u, rfl⟩
    rw [trimEnd_append_of_trimEnd_eq hw]
    exact List.prefix_append w _

/-- Trimming takes nothing from a stretch that has no blank at its ends. -/
theorem infix_trim {w : Text} (hblank : isBlank w = false) (htrim : trim w = w) {t : Text}
    (h : w <:+: t) : w <:+: trim t := by
  obtain ⟨a, z, rfl⟩ := h
  obtain ⟨a', ha'⟩ : ∃ a', trimStart (a ++ (w ++ z)) = a' ++ (w ++ z) := by
    by_cases ha : isBlank a = true
    · refine ⟨[], ?_⟩
      rw [trimStart_append_of_blank ha, trimStart_append hblank, trimStart_of_trim_eq htrim]
      rfl
    · exact ⟨trimStart a, trimStart_append (by simpa using ha) _⟩
  refine ⟨a', trimEnd z, ?_⟩
  rw [List.append_assoc, List.append_assoc, trim, ha', trimEnd_append (by simp [hblank]),
    trimEnd_append_of_trimEnd_eq (trimEnd_of_trim_eq htrim)]

theorem trim_isInfix (t : Text) : trim t <:+: t := by
  have hend : trim t <+: trimStart t := by
    rw [← List.reverse_suffix, trim, trimEnd, List.reverse_reverse]
    exact List.dropWhile_suffix _
  exact hend.isInfix.trans (List.dropWhile_suffix _).isInfix

theorem trim_sublist (t : Text) : (trim t).Sublist t := (trim_isInfix t).sublist

end DocComment.Text
