/-
The normal form of a comment.

A comment may stand on one line or many, at any indentation.  `normalize` gives each of its items a
line of its own:

* an indented star that a blank follows starts a new line (`breakStars`);
* every line is trimmed and empty lines go;
* the marker that opens and the marker that closes the comment get lines of their own.

Design notes: the closing marker is split off last and its line is not trimmed again, so what
precedes it keeps its trailing blanks, and a comment that had the marker on its own line keeps an
empty line before it.  Identifiers are digests of this text, so the exact spelling matters.
-/
import DocComment.Text.Cut

namespace DocComment.Comment

open Text

/-- Starts a new line at every star between an indent and a blank. -/
def breakStars : Text → Text
  | a :: '*' :: b :: t =>
    if isIndent a && DocComment.isBlank b then "\n * ".toList ++ breakStars t
    else a :: breakStars ('*' :: b :: t)
  | c :: t => c :: breakStars t
  | [] => []

/-- The lines of a text, trimmed, without the empty ones. -/
def trimmedLines (t : Text) : List Text := ((lines t).map trim).filter (· ≠ [])

/-- Gives the marker that opens a comment a line of its own. -/
def splitOpening (t : Text) : Text :=
  match after? "/**".toList t with
  | some rest => "/**\n*".toList ++ rest
  | none => t

/-- Gives the marker that closes a comment a line of its own. -/
def splitClosing (t : Text) : Text :=
  match before? "*/".toList t with
  | some rest => rest ++ "\n*/".toList
  | none => t

/-- The normal form, on characters. -/
def normalForm (t : Text) : Text :=
  splitClosing (splitOpening (unlines (trimmedLines (breakStars (trim t)))))

/-- The normal form of a comment. -/
def normalize (comment : String) : String := String.ofList (normalForm comment.toList)

theorem breakStars_of_notMem {t : Text} (h : '*' ∉ t) : breakStars t = t := by
  fun_induction breakStars t <;> simp_all

end DocComment.Comment
