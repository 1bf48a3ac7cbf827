/-
Where comments stand in a text.

`IsComment` says what a comment is: the opening marker, at least one character, and the first
closing marker that comes after that character.  `commentHere?_eq_some_iff` says that a comment is
found right here exactly when the text goes on with one, and `commentsOf_append` makes it a step of
the scan: text without an opening marker and a comment behind it add that comment or nothing, and
the scan goes on behind the comment as if nothing had been.

* `SourceText.comments_text` — of a text laid out as comments with other text between, the comments
  that are found are those that no quote precedes and that no line comments out;
* `closes_only_at_end_iff` — a comment that was found has its closing marker nowhere but at its end,
  unless it begins with an empty comment: the character that has to follow the opening marker may
  then be one of the closing marker.
-/
import DocComment.Comment.Extraction
import Mathlib.Data.List.Infix
import Mathlib.Data.List.TakeWhile

namespace DocComment.Comment

open Text

/-! ### A comment right here -/

/-- The text is one comment: its marker, at least one character, and the first closing marker that
comes after that character. -/
def IsComment (m : Text) : Prop :=
  ∃ c b, m = "/**".toList ++ c :: (b ++ "*/".toList) ∧ ¬"*/".toList <:+: b

theorem IsComment.exists_eq_append {m : Text} (h : IsComment m) :
    ∃ u, m = "/**".toList ++ u := by
  obtain ⟨c, b, rfl, -⟩ := h
  exact ⟨_, rfl⟩

theorem closing?_append {b : Text} (h : ¬"*/".toList <:+: b) (rest : Text) :
    closing? (b ++ "*/".toList ++ rest) = some (b ++ "*/".toList, rest) := by
  induction b with
  | nil => rfl
  | cons c b ih =>
    have hb : ¬"*/".toList <:+: b := fun hb => h (List.infix_cons hb)
    -- the star of the marker cannot be taken for its slash, so none ends at the first character
    have hnot : ∀ t, c = '*' → b ++ "*/".toList ++ rest = '/' :: t → False := by
      rintro t rfl ht
      cases b with
      | nil => simp at ht
      | cons d b =>
        obtain rfl : d = '/' := (List.cons.inj ht).1
        exact h ⟨[], b, rfl⟩
    rw [List.cons_append, List.cons_append, closing?, ih hb]
    · rfl
    · exact hnot

theorem closing?_eq_some_iff {t a rest : Text} : closing? t = some (a, rest) ↔
    t = a ++ rest ∧ ∃ b, a = b ++ "*/".toList ∧ ¬"*/".toList <:+: b := by
  constructor
  · intro h
    refine ⟨eq_append_of_closing? h, ?_⟩
    fun_induction closing? t generalizing a with
    | case1 t =>
      cases h
      exact ⟨[], rfl, by simp⟩
    | case2 c t hnot ih =>
      obtain ⟨⟨a', rest'⟩, h', heq⟩ := Option.map_eq_some_iff.mp h
      cases heq
      obtain ⟨b, rfl, hb⟩ := ih h'
      refine ⟨c :: b, rfl, fun hinfix => ?_⟩
      rcases List.infix_cons_iff.mp hinfix with ⟨u, hu⟩ | hinfix
      · obtain ⟨rfl, rfl⟩ := List.cons.inj hu
        exact hnot _ rfl (eq_append_of_closing? h')
      · exact hb hinfix
    | case3 => simp at h
  · rintro ⟨rfl, b, rfl, hb⟩
    exact closing?_append hb rest

theorem commentHere?_eq_some_iff {t m rest : Text} :
    commentHere? t = some (m, rest) ↔ t = m ++ rest ∧ IsComment m := by
  constructor
  · intro h
    refine ⟨eq_append_of_commentHere? h, ?_⟩
    unfold commentHere? at h
    split at h
    · next c body _ =>
      obtain ⟨⟨a, rest'⟩, h', heq⟩ := Option.map_eq_some_iff.mp h
      cases heq
      obtain ⟨-, b, rfl, hb⟩ := closing?_eq_some_iff.mp h'
      exact ⟨c, b, rfl, hb⟩
    · cases h
  · rintro ⟨rfl, c, b, rfl, hb⟩
    have hafter : after? "/**".toList ("/**".toList ++ c :: (b ++ "*/".toList) ++ rest) =
        some (c :: (b ++ "*/".toList ++ rest)) := by simp
    rw [commentHere?, hafter]
    simp only [closing?_append hb, Option.map_some]

theorem commentHere?_of_not_prefix {t : Text} (h : ¬"/**".toList <+: t) :
    commentHere? t = none := by
  rw [commentHere?, after?_eq_none_iff.mpr h]

/-- Text without an opening marker does not get one from the marker behind it. -/
theorem not_prefix_append_marker {g : Text} (hg : ¬"/**".toList <:+: g) (hne : g ≠ [])
    (u : Text) : ¬"/**".toList <+: g ++ ("/**".toList ++ u) := by
  rintro ⟨r, hr⟩
  -- a marker that starts in `g` ends in it, for no end of a marker starts another one
  match g, hne with
  | [a], _ => simp at hr
  | [a, b], _ => simp at hr
  | a :: b :: c :: g, _ =>
    obtain ⟨rfl, rfl, rfl, -⟩ : '/' = a ∧ '*' = b ∧ '*' = c ∧ _ := by simpa using hr
    exact hg ⟨[], g, rfl⟩

/-! ### The scan -/

theorem isComment_of_mem_commentsOf {t m : Text} (h : m ∈ commentsOf t) : IsComment m := by
  fun_induction commentsOf t with
  | case1 => simp at h
  | case2 c t _ m' rest _ ih => exact ih h
  | case3 c t _ _ ih => exact ih h
  | case4 c t _ m' rest _ _ ih => exact ih h
  | case5 c t _ m' rest hm _ ih =>
    rcases List.mem_cons.mp h with rfl | h
    · exact (commentHere?_eq_some_iff.mp hm).2
    · exact ih h
  | case6 c t _ _ ih => exact ih h

theorem isCommentedOut_of_mem_commentsOf {t m : Text} (h : m ∈ commentsOf t) :
    isCommentedOut m = false := by
  fun_induction commentsOf t with
  | case1 => simp at h
  | case2 c t _ m' rest _ ih => exact ih h
  | case3 c t _ _ ih => exact ih h
  | case4 c t _ m' rest _ _ ih => exact ih h
  | case5 c t _ m' rest _ hkept ih =>
    rcases List.mem_cons.mp h with rfl | h
    · simpa using hkept
    · exact ih h
  | case6 c t _ _ ih => exact ih h

theorem isComment_of_mem_comments {text comment : String} (h : comment ∈ comments text) :
    IsComment comment.toList := by
  obtain ⟨m, hm, rfl⟩ := List.mem_map.mp h
  rw [String.toList_ofList]
  exact isComment_of_mem_commentsOf hm

/-- A comment is a stretch of the text that it was found in. -/
theorem infix_of_mem_commentsOf {t m : Text} (h : m ∈ commentsOf t) : m <:+: t := by
  fun_induction commentsOf t with
  | case1 => simp at h
  | case2 c t _ m' rest hm ih =>
    have hrest : rest <:+ t := by
      have hindent := List.dropWhile_suffix isIndent (l := t)
      rw [eq_append_of_commentHere? hm] at hindent
      exact (List.suffix_append m' rest).trans hindent
    exact (ih h).trans (hrest.trans (List.suffix_cons c t)).isInfix
  | case3 c t _ _ ih => exact List.infix_cons (ih h)
  | case4 c t _ m' rest hm _ ih =>
    rw [eq_append_of_commentHere? hm]
    exact (ih h).trans (List.suffix_append m' rest).isInfix
  | case5 c t _ m' rest hm _ ih =>
    rw [eq_append_of_commentHere? hm]
    rcases List.mem_cons.mp h with rfl | h
    · exact (List.prefix_append m rest).isInfix
    · exact (ih h).trans (List.suffix_append m' rest).isInfix
  | case6 c t _ _ ih => exact List.infix_cons (ih h)

theorem infix_of_mem_comments {text comment : String} (h : comment ∈ comments text) :
    comment.toList <:+: text.toList := by
  obtain ⟨m, hm, rfl⟩ := List.mem_map.mp h
  rw [String.toList_ofList]
  exact infix_of_mem_commentsOf hm

theorem commentsOf_quoted {c : Char} {t m rest : Text} (hc : isQuote c = true)
    (h : commentHere? (t.dropWhile isIndent) = some (m, rest)) :
    commentsOf (c :: t) = commentsOf rest := by
  rw [commentsOf, if_pos hc]
  split
  · next h' => rw [h] at h'; cases h'; rfl
  · next h' => rw [h] at h'; cases h'

theorem commentsOf_comment {m : Text} (hm : IsComment m) (rest : Text) :
    commentsOf (m ++ rest) = (if isCommentedOut m then [] else [m]) ++ commentsOf rest := by
  have hhere : commentHere? (m ++ rest) = some (m, rest) :=
    commentHere?_eq_some_iff.mpr ⟨rfl, hm⟩
  obtain ⟨t, ht⟩ : ∃ t, m ++ rest = '/' :: t := by
    obtain ⟨u, rfl⟩ := hm.exists_eq_append
    exact ⟨_, rfl⟩
  rw [ht] at hhere ⊢
  rw [commentsOf, if_neg (by decide)]
  split
  · next h' =>
    rw [hhere] at h'
    cases h'
    split <;> rfl
  · next h' => rw [hhere] at h'; cases h'

theorem infix_cons_dropWhile (c : Char) (g : Text) : g.dropWhile isIndent <:+: c :: g :=
  (List.dropWhile_suffix isIndent).isInfix.trans (List.infix_cons List.infix_rfl)

theorem commentsOf_cons_of_none {c : Char} {t : Text}
    (h : commentHere? (if isQuote c then t.dropWhile isIndent else c :: t) = none) :
    commentsOf (c :: t) = commentsOf t := by
  rw [commentsOf]
  split at h
  · next hc =>
    rw [if_pos hc]
    split
    · next h' => rw [h] at h'; cases h'
    · rfl
  · next hc =>
    rw [if_neg hc]
    split
    · next h' => rw [h] at h'; cases h'
    · rfl

theorem commentsOf_of_not_infix {g : Text} (hg : ¬"/**".toList <:+: g) : commentsOf g = [] := by
  induction g with
  | nil => rw [commentsOf]
  | cons c g ih =>
    have hnone : commentHere? (if isQuote c then g.dropWhile isIndent else c :: g) = none := by
      refine commentHere?_of_not_prefix fun h => hg (h.isInfix.trans ?_)
      split
      · exact infix_cons_dropWhile c g
      · exact List.infix_rfl
    rw [commentsOf_cons_of_none hnone, ih fun h => hg (List.infix_cons h)]

/-- The text ends in a quote with nothing but spaces and tabs behind it. -/
def EndsInQuote (g : Text) : Prop :=
  ∃ a q b, g = a ++ q :: b ∧ isQuote q = true ∧ b.all isIndent = true

theorem endsInQuote_cons {c : Char} {g : Text} :
    EndsInQuote (c :: g) ↔ (isQuote c = true ∧ g.all isIndent = true) ∨ EndsInQuote g := by
  constructor
  · rintro ⟨a, q, b, h, hq, hb⟩
    cases a with
    | nil =>
      obtain ⟨rfl, rfl⟩ := List.cons.inj h
      exact Or.inl ⟨hq, hb⟩
    | cons d a => exact Or.inr ⟨a, q, b, (List.cons.inj h).2, hq, hb⟩
  · rintro (⟨hq, hb⟩ | ⟨a, q, b, rfl, hq, hb⟩)
    · exact ⟨[], c, g, rfl, hq, hb⟩
    · exact ⟨c :: a, q, b, rfl, hq, hb⟩

instance decidableEndsInQuote : DecidablePred EndsInQuote
  | [] => isFalse (by simp [EndsInQuote])
  | _ :: g =>
    have := decidableEndsInQuote g
    decidable_of_iff _ endsInQuote_cons.symm

/-- One step of the scan, over text without an opening marker and the comment behind it. -/
theorem commentsOf_append {g m : Text} (hg : ¬"/**".toList <:+: g) (hm : IsComment m)
    (rest : Text) : commentsOf (g ++ (m ++ rest)) =
      (if EndsInQuote g ∨ isCommentedOut m = true then [] else [m]) ++ commentsOf rest := by
  have hhere : commentHere? (m ++ rest) = some (m, rest) :=
    commentHere?_eq_some_iff.mpr ⟨rfl, hm⟩
  obtain ⟨u, hu⟩ : ∃ u, m ++ rest = "/**".toList ++ u := by
    obtain ⟨u, rfl⟩ := hm.exists_eq_append
    exact ⟨_, List.append_assoc ..⟩
  induction g with
  | nil =>
    have hnil : ¬EndsInQuote [] := by simp [EndsInQuote]
    simp only [List.nil_append, commentsOf_comment hm, hnil, false_or]
  | cons c g ih =>
    have ih := ih fun h => hg (List.infix_cons h)
    by_cases hq : isQuote c = true ∧ g.all isIndent = true
    · -- the quote takes the comment with it
      have hdrop : (g ++ (m ++ rest)).dropWhile isIndent = m ++ rest := by
        rw [List.dropWhile_append_of_pos (List.all_eq_true.mp hq.2), hu]
        rfl
      rw [List.cons_append, commentsOf_quoted hq.1 (hdrop ▸ hhere),
        if_pos (Or.inl (endsInQuote_cons.mpr (Or.inl hq))), List.nil_append]
    · -- nothing starts at `c`
      have hnone : commentHere? (if isQuote c then (g ++ (m ++ rest)).dropWhile isIndent
          else c :: (g ++ (m ++ rest))) = none := by
        refine commentHere?_of_not_prefix ?_
        rw [hu]
        split
        · next hc =>
          have hne : g.dropWhile isIndent ≠ [] := fun hnil =>
            hq ⟨hc, List.all_eq_true.mpr (List.dropWhile_eq_nil_iff.mp hnil)⟩
          rw [List.dropWhile_append, if_neg (by simpa using hne)]
          exact not_prefix_append_marker (fun h => hg (h.trans (infix_cons_dropWhile c g))) hne u
        · exact not_prefix_append_marker hg (List.cons_ne_nil c g) u
      have hends : EndsInQuote (c :: g) ↔ EndsInQuote g := by
        rw [endsInQuote_cons, or_iff_right hq]
      rw [List.cons_append, commentsOf_cons_of_none hnone, ih]
      simp only [hends]

/-! ### Texts laid out as comments -/

/-- A comment in a text, with what stands between it and the comment before. -/
structure Piece where
  gap : Text
  /-- What stands between the markers. -/
  body : Text
  not_infix_gap : ¬"/**".toList <:+: gap
  body_ne_nil : body ≠ []
  not_infix_body : ¬"*/".toList <:+: body

namespace Piece

def comment (p : Piece) : Text := "/**".toList ++ p.body ++ "*/".toList

theorem isComment (p : Piece) : IsComment p.comment := by
  obtain ⟨c, b, hb⟩ := List.exists_cons_of_ne_nil p.body_ne_nil
  refine ⟨c, b, ?_, fun h => p.not_infix_body (hb ▸ List.infix_cons h)⟩
  rw [comment, hb, List.append_assoc, List.cons_append]

/-- No quote hides the comment, and no line of it starts with two slashes. -/
def IsKept (p : Piece) : Prop :=
  ¬EndsInQuote p.gap ∧ ∀ line ∈ lines p.comment, ¬"//".toList <+: trimStart line

instance : DecidablePred IsKept := fun _ => inferInstanceAs (Decidable (_ ∧ _))

theorem isKept_iff {p : Piece} :
    p.IsKept ↔ ¬(EndsInQuote p.gap ∨ isCommentedOut p.comment = true) := by
  rw [IsKept, not_or, isCommentedOut]
  simp

end Piece

theorem commentsOf_pieces {last : Text} (hlast : ¬"/**".toList <:+: last) (ps : List Piece) :
    commentsOf (ps.flatMap (fun p => p.gap ++ p.comment) ++ last) =
      (ps.filter fun p => p.IsKept).map Piece.comment := by
  induction ps with
  | nil => exact commentsOf_of_not_infix hlast
  | cons p ps ih =>
    rw [List.flatMap_cons, List.append_assoc, List.append_assoc,
      commentsOf_append p.not_infix_gap p.isComment, ih]
    by_cases hkept : p.IsKept
    · rw [if_neg (Piece.isKept_iff.mp hkept), List.filter_cons_of_pos (by simpa using hkept)]
      rfl
    · rw [if_pos (Classical.not_not.mp (mt Piece.isKept_iff.mpr hkept)),
        List.filter_cons_of_neg (by simpa using hkept)]
      rfl

/-- A text as its comments and what stands between them. -/
structure SourceText where
  pieces : List Piece
  /-- What follows the last comment. -/
  last : Text
  not_infix_last : ¬"/**".toList <:+: last

namespace SourceText

def text (s : SourceText) : String :=
  String.ofList (s.pieces.flatMap (fun p => p.gap ++ p.comment) ++ s.last)

/-- **The scan finds every comment**, but for those behind a quote and those commented out, and none
of these hides another one. -/
theorem comments_text (s : SourceText) :
    comments s.text = (s.pieces.filter fun p => p.IsKept).map fun p => String.ofList p.comment := by
  rw [comments, text, String.toList_ofList, commentsOf_pieces s.not_infix_last,
    List.map_map]
  rfl

/-- A text with a comment in a string, a comment that is commented out, and two that are neither,
one of them after a quote on the line before. -/
def sample : SourceText where
  pieces := [⟨"x = '\t".toList, " a ".toList, by decide, by decide, by decide⟩,
    ⟨"';\n".toList, "\n  // b\n ".toList, by decide, by decide, by decide⟩,
    ⟨" \x27\n".toList, "*".toList, by decide, by decide, by decide⟩,
    ⟨[], "\n * c // d\n ".toList, by decide, by decide, by decide⟩]
  last := " '/*".toList
  not_infix_last := by decide

theorem comments_text_sample :
    comments "x = '\t/** a */';\n/**\n  // b\n */ '\n/****//**\n * c // d\n */ '/*" =
      ["/****/", "/**\n * c // d\n */"] :=
  comments_text sample

end SourceText

/-! ### Where a found comment closes -/

/-- The closing marker stands nowhere but at the end of the text. -/
def ClosesOnlyAtEnd (m : Text) : Prop := ∀ a z, m = a ++ "*/".toList ++ z → z = []

theorem closesOnlyAtEnd_append {b : Text} (h : ¬"*/".toList <:+: b) :
    ClosesOnlyAtEnd (b ++ "*/".toList) := by
  intro a z hz
  -- a marker in front of the last one would stand in `b`, whatever comes between
  obtain rfl | ⟨z, y, rfl⟩ := List.eq_nil_or_concat z
  · rfl
  · have hstar : b ++ ['*'] = a ++ "*/".toList ++ z := by
      have hz : (b ++ ['*']) ++ ['/'] = (a ++ "*/".toList ++ z) ++ [y] := by simpa using hz
      exact (List.append_inj' hz rfl).1
    obtain rfl | ⟨z, x, rfl⟩ := List.eq_nil_or_concat z
    · have hlast := congrArg List.getLast? hstar
      simp at hlast
    · rw [List.concat_eq_append, ← List.append_assoc] at hstar
      exact absurd ⟨a, z, (List.append_inj' hstar rfl).1.symm⟩ h

/-- The character that has to follow the opening marker may be one of a closing marker: its slash,
if the closing marker shares its star with the opening one, or its star. -/
theorem IsComment.closesOnlyAtEnd_iff {m : Text} (h : IsComment m) :
    ClosesOnlyAtEnd m ↔ ¬"/**/".toList <+: m ∧ ¬"/***/".toList <+: m := by
  obtain ⟨c, b, rfl, hb⟩ := h
  constructor
  · intro hm
    have hlen : ∀ z, "/**".toList ++ c :: (b ++ "*/".toList) = "/**/".toList ++ z ∨
        "/**".toList ++ c :: (b ++ "*/".toList) = "/***/".toList ++ z → z ≠ [] := by
      rintro z h rfl
      rcases h with h | h <;> simpa using congrArg List.length h
    refine ⟨?_, ?_⟩
    · rintro ⟨z, hz⟩
      exact hlen z (Or.inl hz.symm) (hm "/*".toList z hz.symm)
    · rintro ⟨z, hz⟩
      exact hlen z (Or.inr hz.symm) (hm "/**".toList z hz.symm)
  · rintro ⟨hslash, hstar⟩ a z hz
    match a with
    | [] => simp at hz
    | [_] => simp at hz
    | [x, y] =>
      obtain ⟨-, -, rfl, -⟩ : '/' = x ∧ '*' = y ∧ c = '/' ∧ _ := by simpa using hz
      exact absurd ⟨_, rfl⟩ hslash
    | [x, y, w] =>
      obtain ⟨-, -, -, rfl, hb⟩ :
        '/' = x ∧ '*' = y ∧ '*' = w ∧ c = '*' ∧ b ++ "*/".toList = '/' :: z := by simpa using hz
      exact absurd ⟨z, by rw [hb]; rfl⟩ hstar
    | x :: y :: w :: d :: a =>
      obtain ⟨-, -, -, -, hz⟩ : '/' = x ∧ '*' = y ∧ '*' = w ∧ c = d ∧
        b ++ "*/".toList = a ++ "*/".toList ++ z := by simpa using hz
      exact closesOnlyAtEnd_append hb a z hz

/-- **A found comment is closed where it ends.**  It starts with the opening marker and ends with
the closing one, which stands nowhere else in it, unless it begins with an empty comment. -/
theorem closes_only_at_end_iff {text comment : String} (h : comment ∈ comments text) :
    "/**".toList <+: comment.toList ∧ "*/".toList <:+ comment.toList ∧
      (ClosesOnlyAtEnd comment.toList ↔
        ¬"/**/".toList <+: comment.toList ∧ ¬"/***/".toList <+: comment.toList) := by
  have hm := isComment_of_mem_comments h
  refine ⟨?_, ?_, hm.closesOnlyAtEnd_iff⟩
  · obtain ⟨u, hu⟩ := hm.exists_eq_append
    exact ⟨u, hu.symm⟩
  · obtain ⟨c, b, hb, -⟩ := hm
    exact ⟨"/**".toList ++ c :: b, by rw [hb]; simp⟩

/-- Two comments with no space between them, the second one with a star for its body. -/
theorem closes_only_at_end_iff_starred :
    "/****/" ∈ comments "a/**b*//****/" ∧
      "/**".toList <+: "/****/".toList ∧ "*/".toList <:+ "/****/".toList ∧
      (ClosesOnlyAtEnd "/****/".toList ↔
        ¬"/**/".toList <+: "/****/".toList ∧ ¬"/***/".toList <+: "/****/".toList) := by
  have hmem : "/****/" ∈ comments "a/**b*//****/" := by
    rw [show comments "a/**b*//****/" = ["/**b*/", "/****/"] by cbv]
    decide
  exact ⟨hmem, closes_only_at_end_iff hmem⟩

/-- An empty comment swallows the code behind it, up to the end of the next comment. -/
theorem not_forall_closesOnlyAtEnd :
    ¬∀ text comment : String, comment ∈ comments text → ClosesOnlyAtEnd comment.toList := by
  intro h
  have hmem : "/**/ f(); /** g */" ∈ comments "/**/ f(); /** g */" := by
    rw [show comments "/**/ f(); /** g */" = ["/**/ f(); /** g */"] by cbv]
    decide
  exact absurd (h _ _ hmem "/*".toList " f(); /** g */".toList (by decide)) (by decide)

end DocComment.Comment
