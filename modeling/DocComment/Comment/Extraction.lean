/-
Finding comments in a text.

A comment starts with a slash and two stars and ends with the first star and slash that come at
least one character later.  `comments` lists those of a text, from left to right, each search going
on where the last comment ended.  Two kinds are read past and left out:

* a comment that a quote precedes, with nothing but spaces and tabs between, since it is part of a
  string literal;
* a comment with a line that starts with two slashes, since it is commented out.

`eq_append_of_commentHere?` says that finding a comment cuts the text in two, so the search ends.
-/
import DocComment.Text.Cut

namespace DocComment.Comment

open Text

/-- The three quotes of string literals. -/
def isQuote (c : Char) : Bool := c == '\x27' || c == '"' || c == '\x60'

/-- Cuts after the first star and slash. -/
def closing? : Text → Option (Text × Text)
  | '*' :: '/' :: t => some ("*/".toList, t)
  | c :: t => (closing? t).map fun (a, b) => (c :: a, b)
  | [] => none

/-- The comment that starts right here and what follows it. -/
def commentHere? (t : Text) : Option (Text × Text) :=
  match after? "/**".toList t with
  | some (c :: body) => (closing? body).map fun (a, rest) => ("/**".toList ++ c :: a, rest)
  | _ => none

/-- Some line starts with two slashes. -/
def isCommentedOut (comment : Text) : Bool :=
  (lines comment).any fun line => "//".toList.isPrefixOf (trimStart line)

theorem eq_append_of_closing? {t a b : Text} (h : closing? t = some (a, b)) : t = a ++ b := by
  fun_induction closing? t generalizing a with
  | case1 t => cases h; rfl
  | case2 c t _ ih =>
    obtain ⟨⟨a', b'⟩, h', heq⟩ := Option.map_eq_some_iff.mp h
    cases heq
    rw [ih h', List.cons_append]
  | case3 => simp at h

theorem eq_append_of_commentHere? {t m rest : Text} (h : commentHere? t = some (m, rest)) :
    t = m ++ rest := by
  unfold commentHere? at h
  split at h
  · next c body hb =>
    obtain ⟨⟨a, b⟩, h', heq⟩ := Option.map_eq_some_iff.mp h
    cases heq
    rw [after?_eq_some_iff] at hb
    rw [hb, eq_append_of_closing? h']
    simp
  · simp at h

/-- A comment has at least the characters of its marker. -/
theorem length_of_commentHere? {t m rest : Text} (h : commentHere? t = some (m, rest)) :
    rest.length < t.length := by
  have ht := eq_append_of_commentHere? h
  unfold commentHere? at h
  split at h
  · obtain ⟨⟨a, b⟩, h', heq⟩ := Option.map_eq_some_iff.mp h
    cases heq
    simp [ht]
    omega
  · simp at h

/-- The comments of a text, on characters. -/
def commentsOf : Text → List Text
  | [] => []
  | c :: t =>
    if isQuote c then
      match _h : commentHere? (t.dropWhile isIndent) with
      | some (_, rest) => commentsOf rest
      | none => commentsOf t
    else
      match _h : commentHere? (c :: t) with
      | some (m, rest) => if isCommentedOut m then commentsOf rest else m :: commentsOf rest
      | none => commentsOf t
termination_by t => t.length
decreasing_by
  · have h₁ := length_of_commentHere? _h
    have h₂ := (List.dropWhile_sublist isIndent (l := t)).length_le
    simp only [List.length_cons]
    omega
  · simp
  · exact length_of_commentHere? _h
  · exact length_of_commentHere? _h
  · simp

/-- The comments of a text, in order. -/
def comments (text : String) : List String := (commentsOf text.toList).map String.ofList

end DocComment.Comment
