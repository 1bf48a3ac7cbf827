/-
The lines of a comment in normal form.

`trimmedLines` is what a reader of a comment sees of a text, and it is compositional:

* `trimmedLines_append` — the lines of two texts with a newline between are the lines of both;
* `trimmedLines_of_blank_append`, `trimmedLines_append_of_blank` — blanks at the ends do not count,
  newlines among them.

Together they give `trimmedLines_normalForm`: the normal form of a comment with the body `b` has the
opening marker, the lines of `b` broken at its stars and with one star in front, and the closing
marker.  Everything said about the lines of a comment starts from there.  Breaking the stars is
compositional as well where the seam of the two texts is no break (`breakStars_append`), and all
that stands between its stars and blanks was there before (`infix_of_infix_breakStars`).
-/
import DocComment.Comment.Section
import DocComment.Proofs.Text.Lines
import DocComment.Proofs.Text.Trim

namespace DocComment.Comment

open Text

/-! ### Trimmed lines -/

theorem trimmedLines_append (a b : Text) :
    trimmedLines (a ++ '\n' :: b) = trimmedLines a ++ trimmedLines b := by
  simp [trimmedLines, lines_append]

theorem trimmedLines_newline_cons (t : Text) : trimmedLines ('\n' :: t) = trimmedLines t :=
  trimmedLines_append [] t

/-- A text without a newline is one line, or none if it is blank. -/
theorem trimmedLines_of_notMem {t : Text} (h : '\n' ∉ t) :
    trimmedLines t = if Text.isBlank t then [] else [trim t] := by
  rw [trimmedLines, lines_of_notMem h, List.map_singleton]
  by_cases ht : Text.isBlank t = true
  · simp [ht, trim_eq_nil_iff.mpr ht]
  · simp [ht, trim_eq_nil_iff]

theorem trimmedLines_cons_of_blank {c : Char} (h : DocComment.isBlank c = true) (t : Text) :
    trimmedLines (c :: t) = trimmedLines t := by
  by_cases hc : c = '\n'
  · rw [hc, trimmedLines_newline_cons]
  · obtain ⟨l, ls, hl⟩ := List.exists_cons_of_ne_nil (lines_ne_nil t)
    have htrim : trim (c :: l) = trim l :=
      trim_of_blank_append (b := [c]) (by simpa [Text.isBlank] using h) l
    rw [trimmedLines, trimmedLines, lines_cons_of_ne hc, hl, List.modifyHead_cons, List.map_cons,
      List.map_cons, htrim]

theorem trimmedLines_of_blank_append {b : Text} (h : Text.isBlank b = true) (t : Text) :
    trimmedLines (b ++ t) = trimmedLines t := by
  induction b with
  | nil => rfl
  | cons c b ih =>
    obtain ⟨hc, hb⟩ := Bool.and_eq_true_iff.mp h
    rw [List.cons_append, trimmedLines_cons_of_blank hc, ih hb]

theorem trimmedLines_of_blank {b : Text} (h : Text.isBlank b = true) : trimmedLines b = [] := by
  rw [← List.append_nil b, trimmedLines_of_blank_append h]
  rfl

theorem trimmedLines_append_of_blank {b : Text} (h : Text.isBlank b = true) (t : Text) :
    trimmedLines (t ++ b) = trimmedLines t := by
  induction b generalizing t with
  | nil => rw [List.append_nil]
  | cons c b ih =>
    obtain ⟨hc, hb⟩ := Bool.and_eq_true_iff.mp h
    by_cases hn : c = '\n'
    · rw [hn, trimmedLines_append, trimmedLines_of_blank hb, List.append_nil]
    · -- one more blank on the last line, the only line it can be on
      have hline : ∀ z : Text, '\n' ∉ z → trimmedLines (z ++ [c]) = trimmedLines z := by
        intro z hz
        have hzc : '\n' ∉ z ++ [c] := by simp [hz, Ne.symm hn]
        have hcb : Text.isBlank [c] = true := by simp [Text.isBlank, hc]
        rw [trimmedLines_of_notMem hzc, trimmedLines_of_notMem hz, isBlank_append, hcb,
          trim_append_of_blank hcb, Bool.and_true]
      rw [show t ++ c :: b = t ++ [c] ++ b by simp, ih hb]
      obtain ht | ⟨a, z, rfl, hz⟩ := notMem_or_exists_last_line t
      · exact hline t ht
      · rw [show a ++ '\n' :: z ++ [c] = a ++ '\n' :: (z ++ [c]) by simp, trimmedLines_append,
          trimmedLines_append, hline z hz]

theorem trimmedLines_trim (t : Text) : trimmedLines (trim t) = trimmedLines t := by
  by_cases ht : Text.isBlank t = true
  · rw [trim_eq_nil_iff.mpr ht, trimmedLines_of_blank ht]
    rfl
  · obtain ⟨b, c, u, hb, hc, rfl⟩ := exists_first_of_not_blank (by simpa using ht)
    rw [trim_of_blank_append hb, trim_cons_of_not_blank hc, trimmedLines_of_blank_append hb]
    obtain ⟨b', hb', hu⟩ := exists_trimEnd_append u
    rw [← trimmedLines_append_of_blank hb' (c :: trimEnd u), List.cons_append, ← hu]

/-- A text that begins with a word has a line that does. -/
theorem exists_trimmedLines_append {w : Text} (hblank : Text.isBlank w = false)
    (htrim : trim w = w) (hline : '\n' ∉ w) (t : Text) :
    ∃ u ls, trimmedLines (w ++ t) = (w ++ u) :: ls := by
  have hfirst : ∀ a : Text, '\n' ∉ a → trimmedLines (w ++ a) = [w ++ trimEnd a] := by
    intro a ha
    rw [trimmedLines_of_notMem (by simp [hline, ha]), isBlank_append, hblank, Bool.false_and,
      if_neg Bool.false_ne_true, trim, trimStart_append hblank, trimStart_of_trim_eq htrim,
      trimEnd_append_of_trimEnd_eq (trimEnd_of_trim_eq htrim)]
  obtain ht | ⟨a, z, rfl, ha⟩ := notMem_or_exists_first_line t
  · exact ⟨_, _, hfirst t ht⟩
  · refine ⟨trimEnd a, trimmedLines z, ?_⟩
    rw [← List.append_assoc, trimmedLines_append, hfirst a ha]
    rfl

theorem trim_of_mem {t l : Text} (h : l ∈ trimmedLines t) : trim l = l := by
  obtain ⟨k, -, rfl⟩ := List.mem_map.mp (List.mem_filter.mp h).1
  exact trim_trim k

theorem isBlank_of_mem {t l : Text} (h : l ∈ trimmedLines t) : Text.isBlank l = false := by
  have hne : l ≠ [] := of_decide_eq_true (List.mem_filter.mp h).2
  rw [Bool.eq_false_iff, Ne, ← trim_eq_nil_iff, trim_of_mem h]
  exact hne

theorem notMem_of_mem {t l : Text} (h : l ∈ trimmedLines t) : '\n' ∉ l := by
  obtain ⟨k, hk, rfl⟩ := List.mem_map.mp (List.mem_filter.mp h).1
  exact fun hmem => notMem_of_mem_lines hk ((trim_sublist k).subset hmem)

/-- Every trimmed line is a line of its own: not blank, trimmed, and without a newline. -/
theorem trimmedLines_of_mem {t l : Text} (h : l ∈ trimmedLines t) : trimmedLines l = [l] := by
  rw [trimmedLines_of_notMem (notMem_of_mem h), trim_of_mem h, isBlank_of_mem h]
  rfl

theorem infix_of_mem_trimmedLines {t l : Text} (h : l ∈ trimmedLines t) : l <:+: t := by
  obtain ⟨k, hk, rfl⟩ := List.mem_map.mp (List.mem_filter.mp h).1
  exact (trim_isInfix k).trans (infix_of_mem_lines hk)

theorem trimmedLines_unlines (ls : List Text) :
    trimmedLines (unlines ls) = ls.flatMap trimmedLines := by
  induction ls with
  | nil => rfl
  | cons l ls ih =>
    by_cases hls : ls = []
    · simp [hls]
    · rw [unlines_cons hls, trimmedLines_append, ih, List.flatMap_cons]

theorem flatMap_trimmedLines (t : Text) :
    (trimmedLines t).flatMap trimmedLines = trimmedLines t := by
  have h : (trimmedLines t).map trimmedLines = (trimmedLines t).map fun l => [l] :=
    List.map_congr_left fun l hl => trimmedLines_of_mem hl
  rw [List.flatMap_def, h, ← List.flatMap_def, List.flatMap_singleton']

/-! ### Stars -/

/-- A character that starts no break stays. -/
theorem breakStars_cons {c : Char} {t : Text}
    (h : ∀ b u, t = '*' :: b :: u → ¬(isIndent c = true ∧ DocComment.isBlank b = true)) :
    breakStars (c :: t) = c :: breakStars t := by
  by_cases ht : ∃ b u, t = '*' :: b :: u
  · obtain ⟨b, u, rfl⟩ := ht
    rw [breakStars, if_neg (by simpa using h b u rfl)]
  · rw [breakStars]
    exact fun b u hu => ht ⟨b, u, hu⟩

theorem breakStars_cons_of_head {t : Text} (h : t.head? ≠ some '*') (c : Char) :
    breakStars (c :: t) = c :: breakStars t := by
  refine breakStars_cons fun b u hu => ?_
  rw [hu] at h
  exact absurd rfl h

theorem breakStars_cons_of_not_indent {c : Char} (h : isIndent c = false) (t : Text) :
    breakStars (c :: t) = c :: breakStars t :=
  breakStars_cons fun _ _ _ hcb => Bool.false_ne_true (h.symm.trans hcb.1)

theorem breakStars_star {a b : Char} (ha : isIndent a = true) (hb : DocComment.isBlank b = true)
    (t : Text) : breakStars (a :: '*' :: b :: t) = "\n * ".toList ++ breakStars t := by
  rw [breakStars, ha, hb]
  rfl

/-- A text that is continued starts with a star and one character more because it does so itself,
because it is a lone star, or because there is nothing of it. -/
theorem eq_nil_or_star_of_append {t w u : Text} {b : Char}
    (ht : ∀ b u, t = '*' :: b :: u → False) (h : t ++ w = '*' :: b :: u) :
    (t = [] ∧ w = '*' :: b :: u) ∨ (t = ['*'] ∧ w = b :: u) := by
  rcases t with _ | ⟨d, _ | ⟨e, t⟩⟩
  · exact Or.inl ⟨rfl, h⟩
  · obtain ⟨rfl, hw⟩ := List.cons.inj h
    exact Or.inr ⟨rfl, hw⟩
  · obtain ⟨rfl, -⟩ := List.cons.inj h
    exact (ht e t rfl).elim

/-- The text ends in a star behind a space or a tab. -/
def EndsInStar (t : Text) : Prop := ∃ a x, t = a ++ [x, '*'] ∧ isIndent x = true

theorem breakStars_append {a t : Text} (ha : ¬EndsInStar a) (ht : t.head? ≠ some '*') :
    breakStars (a ++ t) = breakStars a ++ breakStars t := by
  fun_induction breakStars a with
  | case1 x b u h ih =>
    obtain ⟨hx, hb⟩ := Bool.and_eq_true_iff.mp h
    have hu : ¬EndsInStar u := by
      rintro ⟨v, y, rfl, hy⟩
      exact ha ⟨x :: '*' :: b :: v, y, rfl, hy⟩
    rw [List.cons_append, List.cons_append, List.cons_append, breakStars_star hx hb, ih hu,
      List.append_assoc]
  | case2 x b u h ih =>
    have hu : ¬EndsInStar ('*' :: b :: u) := by
      rintro ⟨v, y, hv, hy⟩
      exact ha ⟨x :: v, y, by rw [hv]; rfl, hy⟩
    rw [List.cons_append, List.cons_append, List.cons_append, breakStars, if_neg h,
      List.cons_append, ← ih hu]
    rfl
  | case3 c u h ih =>
    have hu : ¬EndsInStar u := by
      rintro ⟨v, y, rfl, hy⟩
      exact ha ⟨c :: v, y, rfl, hy⟩
    rw [List.cons_append, List.cons_append, ← ih hu]
    refine breakStars_cons fun b v hv hcb => ?_
    rcases eq_nil_or_star_of_append h hv with ⟨-, hv⟩ | ⟨rfl, -⟩
    · rw [hv] at ht
      exact ht rfl
    · exact ha ⟨[], c, rfl, hcb.1⟩
  | case4 => rfl

theorem not_endsInStar_of_notMem {t : Text} (h : '*' ∉ t) : ¬EndsInStar t := by
  rintro ⟨a, x, rfl, -⟩
  simp at h

theorem breakStars_append_of_notMem {a t : Text} (ha : '*' ∉ a) (ht : t.head? ≠ some '*') :
    breakStars (a ++ t) = a ++ breakStars t := by
  rw [breakStars_append (not_endsInStar_of_notMem ha) ht, breakStars_of_notMem ha]

theorem breakStars_opening (t : Text) :
    breakStars ("/**".toList ++ t) = "/**".toList ++ breakStars t := by
  show breakStars ('/' :: '*' :: '*' :: t) = '/' :: '*' :: '*' :: breakStars t
  rw [breakStars_cons_of_not_indent rfl, breakStars_cons_of_not_indent rfl,
    breakStars_cons_of_not_indent rfl]

/-- A star that no blank follows is not broken. -/
theorem breakStars_append_star {u : Text} (hu : ∀ c ∈ u.head?, DocComment.isBlank c = false)
    (t : Text) : breakStars (t ++ '*' :: u) = breakStars t ++ '*' :: breakStars u := by
  fun_induction breakStars t with
  | case1 a b t h ih =>
    obtain ⟨ha, hb⟩ := Bool.and_eq_true_iff.mp h
    rw [List.cons_append, List.cons_append, List.cons_append, breakStars_star ha hb, ih,
      List.append_assoc]
  | case2 a b t h ih =>
    rw [List.cons_append, List.cons_append, List.cons_append, breakStars, if_neg h,
      List.cons_append, ← ih]
    rfl
  | case3 c t h ih =>
    rw [List.cons_append, List.cons_append, ← ih]
    refine breakStars_cons fun b v hv hcb => ?_
    rcases eq_nil_or_star_of_append h hv with ⟨-, hv⟩ | ⟨-, hv⟩
    · have hb : b ∈ u.head? := by rw [(List.cons.inj hv).2]; rfl
      exact Bool.false_ne_true ((hu b hb).symm.trans hcb.2)
    · rw [← (List.cons.inj hv).1] at hcb
      exact absurd hcb.2 (by decide)
  | case4 => exact breakStars_cons_of_not_indent rfl u

/-- No break runs into the marker that closes the comment. -/
theorem breakStars_closing (t : Text) :
    breakStars (t ++ "*/".toList) = breakStars t ++ "*/".toList :=
  breakStars_append_star (u := ['/']) (by rintro _ ⟨⟩; rfl) t

/-- What begins otherwise does not begin at `c`. -/
theorem infix_of_infix_cons {w t : Text} {c : Char} (hc : w.head? ≠ some c) (h : w <:+: c :: t) :
    w <:+: t := by
  rcases List.infix_cons_iff.mp h with h | h
  · rcases List.prefix_cons_iff.mp h with rfl | ⟨w', rfl, -⟩
    · exact List.nil_infix
    · exact absurd rfl hc
  · exact h

/-- What has no star and ends in no blank does not begin where a break does. -/
theorem eq_nil_of_prefix_break {w u : Text} (hstar : '*' ∉ w)
    (hend : ∀ c ∈ w.getLast?, DocComment.isBlank c = false) (h : w <+: "\n * ".toList ++ u) :
    w = [] := by
  change w <+: '\n' :: ' ' :: '*' :: ' ' :: u at h
  match w with
  | [] => rfl
  | [c] =>
    obtain rfl := (List.cons_prefix_cons.mp h).1
    exact absurd (hend '\n' rfl) (by decide)
  | [c, d] =>
    obtain ⟨-, h⟩ := List.cons_prefix_cons.mp h
    obtain rfl := (List.cons_prefix_cons.mp h).1
    exact absurd (hend ' ' rfl) (by decide)
  | c :: d :: e :: w =>
    obtain ⟨-, h⟩ := List.cons_prefix_cons.mp h
    obtain ⟨-, h⟩ := List.cons_prefix_cons.mp h
    obtain rfl := (List.cons_prefix_cons.mp h).1
    simp at hstar

theorem prefix_of_prefix_breakStars {w t : Text} (hstar : '*' ∉ w)
    (hend : ∀ c ∈ w.getLast?, DocComment.isBlank c = false) (h : w <+: breakStars t) : w <+: t := by
  have htail : ∀ {c : Char} {w : Text}, (∀ d ∈ (c :: w).getLast?, DocComment.isBlank d = false) →
      ∀ d ∈ w.getLast?, DocComment.isBlank d = false := by
    intro c w hlast d hd
    refine hlast d ?_
    rw [List.getLast?_cons, Option.mem_def.mp hd]
    rfl
  fun_induction breakStars t generalizing w with
  | case1 a b t _ _ =>
    rw [eq_nil_of_prefix_break hstar hend h]
    exact List.nil_prefix
  | case2 a b t _ ih =>
    rcases List.prefix_cons_iff.mp h with rfl | ⟨w', rfl, h⟩
    · exact List.nil_prefix
    · rw [List.mem_cons, not_or] at hstar
      exact (List.prefix_cons_inj a).mpr (ih hstar.2 (htail hend) ((List.prefix_cons_inj _).mp h))
  | case3 c t _ ih =>
    rcases List.prefix_cons_iff.mp h with rfl | ⟨w', rfl, h⟩
    · exact List.nil_prefix
    · rw [List.mem_cons, not_or] at hstar
      exact (List.prefix_cons_inj c).mpr (ih hstar.2 (htail hend) ((List.prefix_cons_inj _).mp h))
  | case4 => exact h

/-- Breaking the stars makes no new stretch of text without a star, but for blanks at its ends. -/
theorem infix_of_infix_breakStars {w t : Text} (hstar : '*' ∉ w) (hhead : w.head? ≠ some ' ')
    (hend : ∀ c ∈ w.getLast?, DocComment.isBlank c = false) (h : w <:+: breakStars t) :
    w <:+: t := by
  have hhead' : w.head? ≠ some '*' := fun h => hstar (List.mem_of_mem_head? h)
  fun_induction breakStars t with
  | case1 a b t _ ih =>
    -- the stretch begins at no character of the break
    rcases List.infix_cons_iff.mp h with h | h
    · rw [eq_nil_of_prefix_break hstar hend h]
      exact List.nil_infix
    · have h : w <:+: breakStars t :=
        infix_of_infix_cons hhead (infix_of_infix_cons hhead' (infix_of_infix_cons hhead h))
      exact (ih h).trans (List.suffix_append [a, '*', b] t).isInfix
  | case2 a b t hab ih =>
    have hstart := prefix_of_prefix_breakStars (t := a :: '*' :: b :: t) hstar hend
    rw [breakStars, if_neg hab] at hstart
    rcases List.infix_cons_iff.mp h with h | h
    · exact (hstart h).isInfix
    · exact List.infix_cons (ih h)
  | case3 c t hc ih =>
    have hstart := prefix_of_prefix_breakStars (t := c :: t) hstar hend
    rw [breakStars] at hstart
    · rcases List.infix_cons_iff.mp h with h | h
      · exact (hstart h).isInfix
      · exact List.infix_cons (ih h)
    · exact hc
  | case4 => exact h

theorem closing_prefix_of_breakStars {c : Char} {t : Text}
    (h : "*/".toList <+: c :: breakStars t) : "*/".toList <+: c :: t := by
  obtain ⟨rfl, ht⟩ := List.cons_prefix_cons.mp h
  refine List.cons_prefix_cons.mpr ⟨rfl, prefix_of_prefix_breakStars (by decide) ?_ ht⟩
  rintro _ ⟨⟩
  rfl

/-- Breaking the stars makes no closing marker. -/
theorem closing_infix_of_breakStars {t : Text} (h : "*/".toList <:+: breakStars t) :
    "*/".toList <:+: t := by
  fun_induction breakStars t with
  | case1 x s t _ ih =>
    -- the marker cannot begin among the characters of the break
    have htail : "*/".toList <:+: breakStars t := by
      simpa [List.infix_cons_iff, List.cons_prefix_cons] using h
    exact (ih htail).trans (List.suffix_append [x, '*', s] t).isInfix
  | case2 c b t _ ih =>
    rcases List.infix_cons_iff.mp h with h | h
    · exact (closing_prefix_of_breakStars h).isInfix
    · exact List.infix_cons (ih h)
  | case3 c t _ ih =>
    rcases List.infix_cons_iff.mp h with h | h
    · exact (closing_prefix_of_breakStars h).isInfix
    · exact List.infix_cons (ih h)
  | case4 => exact h

theorem closing_infix_cons_of_breakStars {c : Char} {t : Text}
    (h : "*/".toList <:+: c :: breakStars t) : "*/".toList <:+: c :: t := by
  rcases List.infix_cons_iff.mp h with h | h
  · exact (closing_prefix_of_breakStars h).isInfix
  · exact List.infix_cons (closing_infix_of_breakStars h)

/-- The text is one word: no star in it and no blank. -/
def IsWord (w : Text) : Prop := ∀ c ∈ w, c ≠ '*' ∧ DocComment.isBlank c = false

namespace IsWord

variable {w : Text}

theorem star_notMem (h : IsWord w) : '*' ∉ w := fun hmem => (h '*' hmem).1 rfl

theorem notMem_of_isBlank (h : IsWord w) {c : Char} (hc : DocComment.isBlank c = true) :
    c ∉ w := by
  intro hmem
  rw [(h c hmem).2] at hc
  cases hc

/-- Breaking the stars makes no new words. -/
theorem infix_of_infix_breakStars (hw : IsWord w) {t : Text} (h : w <:+: breakStars t) :
    w <:+: t := by
  refine Comment.infix_of_infix_breakStars hw.star_notMem (fun hhead => ?_)
    (fun c hc => (hw c (List.mem_of_mem_getLast? hc)).2) h
  exact hw.notMem_of_isBlank rfl (List.mem_of_mem_head? hhead)

end IsWord

/-! ### Normal form -/

/-- No line starts with a blank. -/
def IsFlush (t : Text) : Prop := ∀ l ∈ lines t, trimStart l = l

theorem IsFlush.append {a b : Text} (ha : IsFlush a) (hb : IsFlush b) :
    IsFlush (a ++ '\n' :: b) := by
  intro l hl
  rw [lines_append, List.mem_append] at hl
  exact hl.elim (ha l) (hb l)

theorem isFlush_of_notMem {t : Text} (h : '\n' ∉ t) (htrim : trimStart t = t) : IsFlush t := by
  intro l hl
  rw [lines_of_notMem h, List.mem_singleton] at hl
  rwa [hl]

theorem isFlush_unlines {ls : List Text} (h : ∀ l ∈ ls, IsFlush l) : IsFlush (unlines ls) := by
  induction ls with
  | nil => exact isFlush_of_notMem (by simp [unlines]) rfl
  | cons l ls ih =>
    by_cases hls : ls = []
    · rw [hls, unlines_singleton]
      exact h l List.mem_cons_self
    · rw [unlines_cons hls]
      exact (h l List.mem_cons_self).append (ih fun k hk => h k (List.mem_cons_of_mem l hk))

theorem isFlush_of_mem {t l : Text} (h : l ∈ trimmedLines t) : IsFlush l :=
  isFlush_of_notMem (notMem_of_mem h) (trimStart_of_trim_eq (trim_of_mem h))

/-- Trimming the lines of a text that ends in the closing marker leaves the marker at the end, and
what precedes it has the lines that it had. -/
theorem exists_unlines_trimmedLines_closing (r : Text) :
    trimmedLines (r ++ "*/".toList) ≠ [] ∧
      ∃ m, unlines (trimmedLines (r ++ "*/".toList)) = m ++ "*/".toList ∧
        trimmedLines m = trimmedLines r ∧ IsFlush m := by
  have hline : ∀ z : Text, '\n' ∉ z →
      trimmedLines (z ++ "*/".toList) = [trimStart z ++ "*/".toList] := by
    intro z hz
    rw [trimmedLines_of_notMem (by simpa using hz), trim_append_of_trim_eq (by decide) (by decide)]
    simp [DocComment.isBlank, Text.isBlank]
  have htrim : ∀ z : Text, '\n' ∉ z → trimmedLines (trimStart z) = trimmedLines z := by
    intro z hz
    rw [← trimmedLines_trim, trim_trimStart, trimmedLines_trim]
  have hflush : ∀ z : Text, '\n' ∉ z → IsFlush (trimStart z) := fun z hz =>
    isFlush_of_notMem (fun hmem => hz ((List.dropWhile_suffix _).subset hmem)) (trimStart_trimStart z)
  obtain hr | ⟨a, z, rfl, hz⟩ := notMem_or_exists_last_line r
  · rw [hline r hr]
    exact ⟨by simp, trimStart r, by simp, htrim r hr, hflush r hr⟩
  · rw [show a ++ '\n' :: z ++ "*/".toList = a ++ '\n' :: (z ++ "*/".toList) by simp,
      trimmedLines_append, hline z hz]
    refine ⟨by simp, unlines (trimmedLines a ++ [trimStart z]), unlines_concat_append _ _ _, ?_, ?_⟩
    · rw [trimmedLines_unlines, List.flatMap_append, flatMap_trimmedLines, List.flatMap_singleton,
        htrim z hz, trimmedLines_append]
    · refine isFlush_unlines fun l hl => ?_
      rcases List.mem_append.mp hl with hl | hl
      · exact isFlush_of_mem hl
      · exact List.mem_singleton.mp hl ▸ hflush z hz

/-- As before, with the opening marker in front; the star that stays of it joins the first line. -/
theorem exists_unlines_trimmedLines_markers (w : Text) :
    ∃ m, unlines (trimmedLines ("/**".toList ++ w ++ "*/".toList)) =
        "/**".toList ++ m ++ "*/".toList ∧
      trimmedLines ('*' :: m) = trimmedLines ('*' :: w) ∧ IsFlush ('*' :: m) := by
  have hflush : ∀ z : Text, '\n' ∉ z → IsFlush ('*' :: z) := fun z hz =>
    isFlush_of_notMem (by simp [hz]) (trimStart_cons_of_not_blank rfl z)
  obtain hw | ⟨a, r, rfl, ha⟩ := notMem_or_exists_first_line w
  · refine ⟨w, ?_, rfl, hflush w hw⟩
    rw [trimmedLines_of_notMem (by simpa using hw), trim_append_of_trim_eq (by decide) (by decide)]
    simp [DocComment.isBlank, Text.isBlank, trimStart]
  · obtain ⟨hne, m, hm, hmr, hmflush⟩ := exists_unlines_trimmedLines_closing r
    have hopen : trimmedLines ("/**".toList ++ a) = ["/**".toList ++ trimEnd a] := by
      rw [trimmedLines_of_notMem (by simpa using ha)]
      show (if _ then _ else [trim ('/' :: '*' :: '*' :: a)]) = _
      rw [trim_cons_of_not_blank rfl, trimEnd_cons_of_not_blank rfl, trimEnd_cons_of_not_blank rfl,
        if_neg]
      · rfl
      · simp [Text.isBlank, DocComment.isBlank]
    have hstar : trimmedLines ('*' :: trimEnd a) = trimmedLines ('*' :: a) := by
      rw [← trimmedLines_trim, trim_cons_of_not_blank rfl, trimEnd_trimEnd,
        ← trim_cons_of_not_blank rfl, trimmedLines_trim]
    have hend : '\n' ∉ trimEnd a := by
      obtain ⟨b, -, hb⟩ := exists_trimEnd_append a
      exact fun hmem => ha (hb ▸ List.mem_append_left b hmem)
    refine ⟨trimEnd a ++ '\n' :: m, ?_, ?_, (hflush _ hend).append hmflush⟩
    · rw [show "/**".toList ++ (a ++ '\n' :: r) ++ "*/".toList =
          "/**".toList ++ a ++ '\n' :: (r ++ "*/".toList) by simp,
        trimmedLines_append, hopen, List.singleton_append, unlines_cons hne, hm]
      simp
    · rw [← List.cons_append, ← List.cons_append, trimmedLines_append, trimmedLines_append, hstar,
        hmr]

/-- What stands between the markers of a comment. -/
def bodyOf (comment : Text) : Text := (comment.drop 3).dropLast.dropLast

theorem bodyOf_append (b : Text) : bodyOf ("/**".toList ++ b ++ "*/".toList) = b := by
  have hdrop : ("/**".toList ++ b ++ "*/".toList).drop 3 = b ++ ['*'] ++ ['/'] := by simp
  rw [bodyOf, hdrop, List.dropLast_concat, List.dropLast_concat]

theorem normalForm_eq (b : Text) : ∃ m,
    normalForm ("/**".toList ++ b ++ "*/".toList) = "/**\n*".toList ++ m ++ "\n*/".toList ∧
      trimmedLines ('*' :: m) = trimmedLines ('*' :: breakStars b) ∧ IsFlush ('*' :: m) := by
  obtain ⟨m, hm, hlines, hflush⟩ := exists_unlines_trimmedLines_markers (breakStars b)
  refine ⟨m, ?_, hlines, hflush⟩
  have htrim : trim ("/**".toList ++ b ++ "*/".toList) = "/**".toList ++ b ++ "*/".toList := by
    rw [trim_append_of_trim_eq (by decide) (by decide)]
    simp [DocComment.isBlank, trimStart]
  have hopen : after? "/**".toList ("/**".toList ++ m ++ "*/".toList) =
      some (m ++ "*/".toList) := by
    simp
  have hclose : before? "*/".toList ("/**\n*".toList ++ (m ++ "*/".toList)) =
      some ("/**\n*".toList ++ m) := by
    simp
  rw [normalForm, htrim, breakStars_closing, breakStars_opening, hm, splitOpening, hopen,
    splitClosing, hclose]

/-- The lines of the normal form of a comment. -/
theorem trimmedLines_normalForm (b : Text) :
    trimmedLines (normalForm ("/**".toList ++ b ++ "*/".toList)) =
      "/**".toList :: trimmedLines ('*' :: breakStars b) ++ ["*/".toList] := by
  obtain ⟨m, hm, hlines, -⟩ := normalForm_eq b
  rw [hm, show "/**\n*".toList ++ m ++ "\n*/".toList =
      "/**".toList ++ '\n' :: ('*' :: m) ++ '\n' :: "*/".toList by simp,
    trimmedLines_append, trimmedLines_append, hlines]
  rfl

/-- The markers of a comment mean nothing: its sections are those of the lines between. -/
theorem sectionsOf_normalForm (b : Text) :
    sectionsOf (normalForm ("/**".toList ++ b ++ "*/".toList)) =
      sections (.between false)
        ((trimmedLines ('*' :: breakStars b)).map Line.ofText ++ [.words [] true]) := by
  have hopen : Line.ofText "/**".toList = .words [] false := by decide
  have hclose : Line.ofText "*/".toList = .words [] true := by decide
  rw [sectionsOf, linesOf, trimmedLines_trim, trimmedLines_normalForm, List.map_append,
    List.map_cons, List.map_singleton, hopen, hclose, List.cons_append, sections]
  rfl

end DocComment.Comment
