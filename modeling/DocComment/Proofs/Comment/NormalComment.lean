/-
The normal form of a comment as a comment.

Normalizing breaks lines, trims them and drops some, but it makes no marker and no line that starts
with two slashes:

* `exists_mem_trimmedLines_of_infix` — words stay whole on the trimmed lines of a text, so a closing
  marker between the markers of the normal form was there before;
* `isCommentedOut_iff`, `isCommentedOut_of_newline`, `exists_newline_of_mem_trimmedLines` — that a
  comment is commented out is told by a newline, blanks and two slashes, which no break puts there.

So the normal form of a comment that closes at its end alone is a comment, and it is not commented
out unless the comment is (`isComment_normalize`).  Of such comments one below the other the scan
finds each (`commentsOf_unlines`).
-/
import DocComment.Proofs.Comment.Extraction
import DocComment.Proofs.Comment.Normal

namespace DocComment.Comment

open Text

/-! ### Words on the lines of a text -/

theorem exists_mem_trimmedLines_of_infix {w : Text} (hblank : Text.isBlank w = false)
    (htrim : trim w = w) (hline : '\n' ∉ w) {t : Text} (h : w <:+: t) :
    ∃ l ∈ trimmedLines t, w <:+: l := by
  obtain ⟨l, hl, hwl⟩ := exists_mem_lines_of_infix hline h
  have hwl := infix_trim hblank htrim hwl
  refine ⟨trim l, List.mem_filter.mpr ⟨List.mem_map_of_mem hl, ?_⟩, hwl⟩
  rw [decide_eq_true_eq]
  rintro hnil
  rw [hnil, List.infix_nil] at hwl
  rw [hwl] at hblank
  cases hblank

/-! ### Lines that start with two slashes -/

theorem isCommentedOut_iff {t : Text} :
    isCommentedOut t = true ↔ ∃ l ∈ trimmedLines t, "//".toList <+: l := by
  have hslashes : trimEnd "//".toList = "//".toList := by decide
  rw [isCommentedOut, List.any_eq_true]
  constructor
  · rintro ⟨l, hl, hstart⟩
    rw [List.isPrefixOf_iff_prefix, ← prefix_trimEnd_iff hslashes] at hstart
    refine ⟨trim l, List.mem_filter.mpr ⟨List.mem_map_of_mem hl, ?_⟩, hstart⟩
    rw [decide_eq_true_eq]
    intro hnil
    rw [← trim, hnil] at hstart
    simp at hstart
  · rintro ⟨l, hl, hstart⟩
    obtain ⟨k, hk, rfl⟩ := List.mem_map.mp (List.mem_filter.mp hl).1
    exact ⟨k, hk, List.isPrefixOf_iff_prefix.mpr ((prefix_trimEnd_iff hslashes).mp hstart)⟩

/-- Slashes that only blanks separate from a newline start a line. -/
theorem isCommentedOut_of_newline {w t : Text} (hw : Text.isBlank w = true)
    (h : '\n' :: (w ++ "//".toList) <:+: t) : isCommentedOut t = true := by
  obtain ⟨a, z, rfl⟩ := h
  obtain ⟨u, ls, hlines⟩ :=
    exists_trimmedLines_append (w := "//".toList) rfl (by decide) (by decide) z
  refine isCommentedOut_iff.mpr ⟨"//".toList ++ u, ?_, List.prefix_append _ _⟩
  rw [show a ++ '\n' :: (w ++ "//".toList) ++ z = a ++ '\n' :: (w ++ ("//".toList ++ z)) by simp,
    trimmedLines_append, trimmedLines_of_blank_append hw, hlines]
  simp

theorem exists_newline_of_mem_trimmedLines {u l : Text} (hl : l ∈ trimmedLines ('*' :: u))
    (h : "//".toList <+: l) :
    ∃ w, Text.isBlank w = true ∧ '\n' :: (w ++ "//".toList) <:+: u := by
  -- the first line begins with the star
  have hstar : ∀ a : Text, '\n' ∉ a → ∀ l ∈ trimmedLines ('*' :: a), ¬"//".toList <+: l := by
    intro a ha l hl hslashes
    rw [trimmedLines_of_notMem (by simp [ha]), trim_cons_of_not_blank rfl, if_neg (by rintro ⟨⟩),
      List.mem_singleton] at hl
    rw [hl] at hslashes
    exact absurd (List.cons_prefix_cons.mp hslashes).1 (by decide)
  obtain hu | ⟨a, z, rfl, ha⟩ := notMem_or_exists_first_line u
  · exact absurd h (hstar u hu l hl)
  · rw [← List.cons_append, trimmedLines_append, List.mem_append] at hl
    have hl : l ∈ trimmedLines z := hl.resolve_left fun hl => hstar a ha l hl h
    obtain ⟨k, hk, rfl⟩ := List.mem_map.mp (List.mem_filter.mp hl).1
    have hslashes : "//".toList <+: trimStart k := (prefix_trimEnd_iff (by decide)).mp h
    refine ⟨k.takeWhile DocComment.isBlank, List.all_takeWhile, ?_⟩
    have hstart : '\n' :: (k.takeWhile DocComment.isBlank ++ "//".toList) <+: '\n' :: k := by
      rw [List.prefix_cons_inj]
      obtain ⟨r, hr⟩ := hslashes
      refine ⟨r, ?_⟩
      rw [List.append_assoc, hr, trimStart, List.takeWhile_append_dropWhile]
    exact (hstart.isInfix.trans (newline_infix_of_mem_lines hk)).trans
      (List.suffix_append a _).isInfix

/-! ### The normal form -/

theorem isComment_normalForm {b : Text} (h : ¬"*/".toList <:+: '*' :: b) :
    IsComment (normalForm ("/**".toList ++ b ++ "*/".toList)) := by
  obtain ⟨m, hm, hlines, -⟩ := normalForm_eq b
  refine ⟨'\n', '*' :: m ++ ['\n'], by rw [hm]; simp, fun hinfix => h ?_⟩
  obtain ⟨l, hl, hclosing⟩ := exists_mem_trimmedLines_of_infix rfl (by decide) (by decide) hinfix
  rw [trimmedLines_append_of_blank rfl, hlines] at hl
  exact closing_infix_cons_of_breakStars (hclosing.trans (infix_of_mem_trimmedLines hl))

theorem isCommentedOut_normalForm {b : Text}
    (h : isCommentedOut ("/**".toList ++ b ++ "*/".toList) = false) :
    isCommentedOut (normalForm ("/**".toList ++ b ++ "*/".toList)) = false := by
  rw [← Bool.not_eq_true] at h ⊢
  intro hout
  obtain ⟨l, hl, hslashes⟩ := isCommentedOut_iff.mp hout
  rw [trimmedLines_normalForm, List.mem_append, List.mem_cons, List.mem_singleton] at hl
  rcases hl with (rfl | hl) | rfl
  · exact absurd hslashes (by decide)
  · -- between the markers, the newline and the slashes were there before the stars were broken
    obtain ⟨w, hw, hinfix⟩ := exists_newline_of_mem_trimmedLines hl hslashes
    have hstar : '*' ∉ '\n' :: (w ++ "//".toList) := by
      simpa using notMem_of_isBlank hw (c := '*') rfl
    have hend : ∀ c ∈ ('\n' :: (w ++ "//".toList)).getLast?, DocComment.isBlank c = false := by
      rw [show '\n' :: (w ++ "//".toList) = ('\n' :: w ++ ['/']) ++ ['/'] by simp,
        List.getLast?_concat]
      rintro _ ⟨⟩
      rfl
    have hsource : '\n' :: (w ++ "//".toList) <:+: b :=
      infix_of_infix_breakStars hstar (by simp) hend hinfix
    exact h (isCommentedOut_of_newline hw (hsource.trans ⟨_, _, rfl⟩))
  · exact absurd hslashes (by decide)

/-- Neither the body nor the body with the star of the marker holds a closing marker. -/
theorem ClosesOnlyAtEnd.not_infix {b : Text}
    (h : ClosesOnlyAtEnd ("/**".toList ++ b ++ "*/".toList)) : ¬"*/".toList <:+: '*' :: b := by
  rintro ⟨a, z, hb⟩
  have hclosed : "/**".toList ++ b ++ "*/".toList =
      "/*".toList ++ a ++ "*/".toList ++ (z ++ "*/".toList) := by
    rw [show "/**".toList ++ b ++ "*/".toList = "/*".toList ++ ('*' :: b) ++ "*/".toList by simp,
      ← hb]
    simp
  simpa using h _ _ hclosed

/-- The normal form of a comment of a text, if that comment closes at its end alone. -/
theorem isComment_normalize {text comment : String} (hmem : comment ∈ comments text)
    (hcloses : ClosesOnlyAtEnd comment.toList) :
    IsComment (normalize comment).toList ∧ isCommentedOut (normalize comment).toList = false := by
  obtain ⟨m, hm, rfl⟩ := List.mem_map.mp hmem
  have hkept := isCommentedOut_of_mem_commentsOf hm
  obtain ⟨c, b, hbody, -⟩ := isComment_of_mem_commentsOf hm
  rw [String.toList_ofList] at hcloses
  rw [normalize, String.toList_ofList, String.toList_ofList]
  have hbody : m = "/**".toList ++ c :: b ++ "*/".toList := by simpa using hbody
  rw [hbody] at hkept hcloses ⊢
  exact ⟨isComment_normalForm hcloses.not_infix, isCommentedOut_normalForm hkept⟩

/-! ### Comments one below the other -/

theorem commentsOf_unlines {ms : List Text}
    (h : ∀ m ∈ ms, IsComment m ∧ isCommentedOut m = false) : commentsOf (unlines ms) = ms := by
  induction ms with
  | nil =>
    show commentsOf [] = []
    rw [commentsOf]
  | cons m ms ih =>
    obtain ⟨hm, hkept⟩ := h m List.mem_cons_self
    have ih := ih fun m hm => h m (List.mem_cons_of_mem _ hm)
    by_cases hms : ms = []
    · have hlast := commentsOf_comment hm []
      rw [hkept, List.append_nil] at hlast
      rw [hms, unlines_singleton, hlast, commentsOf]
      rfl
    · have hnone : commentHere? ('\n' :: unlines ms) = none := by
        refine commentHere?_of_not_prefix ?_
        simp
      have hnewline : commentsOf ('\n' :: unlines ms) = commentsOf (unlines ms) :=
        commentsOf_cons_of_none hnone
      rw [unlines_cons hms, commentsOf_comment hm, hnewline, ih, hkept]
      rfl

end DocComment.Comment
