/-
Lines of a text, and texts made of lines.

* `lines_append`, `lines_of_notMem` — the two equations that cut any text at its newlines;
* `notMem_of_mem_lines`, `infix_of_mem_lines`, `newline_infix_of_mem_lines` — a line holds no
  newline, and is a stretch of the text, behind a newline unless it is the first;
* `exists_mem_lines_of_infix` — a stretch without a newline stands on a line;
* `notMem_or_exists_first_line`, `notMem_or_exists_last_line` — a text is one line, or has a first
  and a last one;
* `unlines_inj`, `head?_unlines_cons`, `getLast?_unlines_concat` — a text made of lines tells them,
  its first character and its last one.
-/
import DocComment.Text.Cut

namespace DocComment.Text

theorem lines_append (a b : Text) : lines (a ++ '\n' :: b) = lines a ++ lines b :=
  List.splitOn_append_cons_self a b

theorem lines_of_notMem {t : Text} (h : '\n' ∉ t) : lines t = [t] :=
  List.splitOn_eq_singleton h

theorem lines_ne_nil (t : Text) : lines t ≠ [] := List.splitOn_ne_nil '\n' t

theorem lines_cons_of_ne {c : Char} (h : c ≠ '\n') (t : Text) :
    lines (c :: t) = (lines t).modifyHead (c :: ·) := by
  rw [lines, List.splitOn_cons_eq_if_modifyHead, if_neg (by simpa using h)]
  rfl

/-- The first line of a text, and what stands after it. -/
theorem notMem_or_exists_first_line (t : Text) :
    '\n' ∉ t ∨ ∃ a z, t = a ++ '\n' :: z ∧ '\n' ∉ a := by
  by_cases h : '\n' ∈ t
  · exact Or.inr (List.eq_append_cons_of_mem h)
  · exact Or.inl h

/-- The last line of a text, and what stands before it. -/
theorem notMem_or_exists_last_line (t : Text) :
    '\n' ∉ t ∨ ∃ a z, t = a ++ '\n' :: z ∧ '\n' ∉ z := by
  obtain h | ⟨z, a, hza, hz⟩ := notMem_or_exists_first_line t.reverse
  · exact Or.inl (by simpa using h)
  · refine Or.inr ⟨a.reverse, z.reverse, ?_, by simpa using hz⟩
    rw [← List.reverse_inj, hza]
    simp

theorem notMem_of_mem_lines {t l : Text} (h : l ∈ lines t) : '\n' ∉ l := by
  induction t generalizing l with
  | nil =>
    rw [lines_of_notMem (by simp), List.mem_singleton] at h
    rw [h]
    simp
  | cons c t ih =>
    by_cases hc : c = '\n'
    · rw [hc, show '\n' :: t = [] ++ '\n' :: t from rfl, lines_append,
        lines_of_notMem (by simp), List.singleton_append, List.mem_cons] at h
      rcases h with rfl | h
      · simp
      · exact ih h
    · obtain ⟨k, ks, hk⟩ := List.exists_cons_of_ne_nil (lines_ne_nil t)
      rw [lines_cons_of_ne hc, hk, List.modifyHead_cons, List.mem_cons] at h
      rcases h with rfl | h
      · have hkn := ih (hk ▸ List.mem_cons_self)
        simp [Ne.symm hc, hkn]
      · exact ih (hk ▸ List.mem_cons_of_mem k h)

@[simp] theorem unlines_singleton (l : Text) : unlines [l] = l := List.intercalate_singleton

theorem unlines_cons {ls : List Text} (h : ls ≠ []) (l : Text) :
    unlines (l :: ls) = l ++ '\n' :: unlines ls := by
  rw [unlines, List.intercalate_cons_of_ne_nil h]
  simp [unlines]

theorem infix_unlines_of_mem {l : Text} {ls : List Text} (h : l ∈ ls) : l <:+: unlines ls := by
  induction ls with
  | nil => simp at h
  | cons k ls ih =>
    by_cases hls : ls = []
    · rw [hls, List.mem_singleton] at h
      have heq : unlines (k :: ls) = l := by rw [hls, unlines_singleton, h]
      exact heq ▸ List.infix_rfl
    · rw [unlines_cons hls]
      rcases List.mem_cons.mp h with rfl | h
      · exact (List.prefix_append _ _).isInfix
      · exact (ih h).trans ((List.suffix_cons _ _).isInfix.trans (List.suffix_append _ _).isInfix)

theorem infix_of_mem_lines {t l : Text} (h : l ∈ lines t) : l <:+: t := by
  have hl := infix_unlines_of_mem h
  rwa [lines, unlines, List.intercalate_splitOn] at hl

/-- A line stands behind a newline, unless it is the first. -/
theorem newline_infix_of_mem_lines {t l : Text} (h : l ∈ lines t) : '\n' :: l <:+: '\n' :: t := by
  have hunlines : ∀ {ls : List Text}, l ∈ ls → '\n' :: l <:+: '\n' :: unlines ls := by
    intro ls hl
    induction ls with
    | nil => simp at hl
    | cons k ls ih =>
      by_cases hls : ls = []
      · rw [hls, List.mem_singleton] at hl
        have heq : unlines (k :: ls) = l := by rw [hls, unlines_singleton, hl]
        exact heq ▸ List.infix_rfl
      · rw [unlines_cons hls]
        rcases List.mem_cons.mp hl with rfl | hl
        · exact (List.prefix_append ('\n' :: l) _).isInfix
        · exact (ih hl).trans (List.suffix_append ('\n' :: k) _).isInfix
  have hl := hunlines h
  rwa [lines, unlines, List.intercalate_splitOn] at hl

/-- A stretch without a newline stands on a line. -/
theorem exists_mem_lines_of_infix {w t : Text} (hw : '\n' ∉ w) (h : w <:+: t) :
    ∃ l ∈ lines t, w <:+: l := by
  obtain ⟨a, z, rfl⟩ := h
  have hline : ∀ z : Text, '\n' ∉ z → ∃ l ∈ lines (a ++ w ++ z), w <:+: l := by
    intro z hz
    obtain ha | ⟨r, a, rfl, ha⟩ := notMem_or_exists_last_line a
    · exact ⟨_, by rw [lines_of_notMem (by simp [ha, hw, hz])]; simp, a, z, rfl⟩
    · refine ⟨a ++ w ++ z, ?_, a, z, rfl⟩
      rw [show r ++ '\n' :: a ++ w ++ z = r ++ '\n' :: (a ++ w ++ z) by simp, lines_append,
        lines_of_notMem (t := a ++ w ++ z) (by simp [ha, hw, hz])]
      simp
  obtain hz | ⟨z, r, rfl, hz⟩ := notMem_or_exists_first_line z
  · exact hline z hz
  · obtain ⟨l, hl, hwl⟩ := hline z hz
    rw [← List.append_assoc, lines_append]
    exact ⟨l, List.mem_append_left _ hl, hwl⟩

/-- What follows the last line follows the whole text. -/
theorem unlines_concat_append (ls : List Text) (z s : Text) :
    unlines (ls ++ [z ++ s]) = unlines (ls ++ [z]) ++ s := by
  induction ls with
  | nil => simp
  | cons l ls ih =>
    rw [List.cons_append, List.cons_append, unlines_cons (by simp), unlines_cons (by simp), ih]
    simp

/-- Lines are told from the text that they make up. -/
theorem unlines_inj {ks ls : List Text} (hks : ∀ k ∈ ks, '\n' ∉ k) (hls : ∀ l ∈ ls, '\n' ∉ l)
    (hkne : ks ≠ []) (hlne : ls ≠ []) : unlines ks = unlines ls ↔ ks = ls := by
  refine ⟨fun h => ?_, fun h => congrArg unlines h⟩
  have hsplit := congrArg lines h
  rwa [lines, lines, unlines, unlines, List.splitOn_intercalate _ hks hkne,
    List.splitOn_intercalate _ hls hlne] at hsplit

theorem head?_unlines_cons {l : Text} (hl : l ≠ []) (ls : List Text) :
    (unlines (l :: ls)).head? = l.head? := by
  obtain ⟨c, l, rfl⟩ := List.exists_cons_of_ne_nil hl
  by_cases hls : ls = []
  · rw [hls, unlines_singleton]
  · rw [unlines_cons hls]
    rfl

theorem getLast?_unlines_concat {l : Text} (hl : l ≠ []) (ls : List Text) :
    (unlines (ls ++ [l])).getLast? = l.getLast? := by
  have hlast : l.getLast? = some (l.getLast hl) := List.getLast?_eq_some_getLast hl
  rw [← List.nil_append l, unlines_concat_append, List.getLast?_append, hlast]
  simp [hlast]

end DocComment.Text
