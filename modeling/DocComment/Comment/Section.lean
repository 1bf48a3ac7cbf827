/-
Sections: the lines of a comment, cut at its tags.

Each line of a comment is one of three things (`Line`): a gap, the start of a tag, or words.
`sections` reads the lines from the first to the last and hands out an entry for each tag and for
each stretch of free text, in order; free text is an entry under the tag `description`.

* A tag is in effect until the next tag starts, or until a gap comes before any words under it.
* Words after such a gap belong to no tag and open a description.
* A gap among words is a paragraph break, kept as an empty line.

`segment` groups the sections by tag.

Design notes: a gap that closes a tag and a gap between words differ only in whether words have
been read, so the reader's state (`Cursor`) is the entry being read, or none together with whether
a gap has been seen since.  The tag marker may stand anywhere in its line: what precedes it joins
the text after it.
-/
import DocComment.Comment.Entry
import DocComment.Comment.Normal

namespace DocComment.Comment

open Text

/-! ### Lines -/

/-- What one line of a comment is. -/
inductive Line where
  /-- An empty line, or one with a lone star. -/
  | gap
  /-- The start of a tag, with the text beside it. -/
  | tag (name : Text) (inline : Option Text)
  /-- Anything else, its markers removed; `closes` tells the line that closes the comment. -/
  | words (text : Text) (closes : Bool)
deriving DecidableEq, Repr

/-- What follows a star and an at sign with at most one blank between them. -/
def afterMarker? : Text → Option Text
  | '*' :: '@' :: t => some t
  | '*' :: b :: '@' :: t => if DocComment.isBlank b then some t else none
  | _ => none

/-- The name of a tag that starts right here and what follows it.  A name is made of letters and
digits and ends at a blank or at the end of the line. -/
def tagHere? (t : Text) : Option (Text × Text) :=
  match afterMarker? t with
  | none => none
  | some t =>
    let name := t.takeWhile Char.isAlphanum
    match t.dropWhile Char.isAlphanum with
    | [] => if name.isEmpty then none else some (name, [])
    | c :: rest =>
      if name.isEmpty || !DocComment.isBlank c then none else some (name, trimStart rest)

/-- The first tag of a line: what precedes it, its name, what follows. -/
def findTag? : Text → Option (Text × Text × Text)
  | [] => none
  | c :: t =>
    match tagHere? (c :: t) with
    | some (name, rest) => some ([], name, rest)
    | none => (findTag? t).map fun (a, name, rest) => (c :: a, name, rest)

/-- Removes the comment's markers and the escapes of at signs from a line. -/
def stripMarkers (line : Text) : Text :=
  let t := (after? "/**".toList line).getD line
  let t := (before? "*/".toList t).getD t
  let t := match t with
    | '*' :: ' ' :: t => t
    | '*' :: t => t
    | t => t
  unescape '@' t

/-- An empty inline text is none. -/
def inlineOf (t : Text) : Option Text := if t.isEmpty then none else some t

def Line.ofText (line : Text) : Line :=
  if Text.isBlank (line.erase '*') then .gap
  else match findTag? line with
    | some (a, name, rest) => .tag name (inlineOf (trim (a ++ rest)))
    | none => .words (stripMarkers line) (line = "*/".toList)

/-! ### Reading lines -/

/-- Where a reader of lines stands. -/
inductive Cursor where
  /-- Under no tag; `afterGap` tells whether a gap was the last line of note. -/
  | between (afterGap : Bool)
  /-- Under a tag, or in free text. -/
  | within (e : Entry)

/-- The tag of free text. -/
def descriptionTag : String := "description"

/-- The entry that is open at the end. -/
def Cursor.finish : Cursor → List Entry
  | .between _ => []
  | .within e => [e]

/-- The entries that the lines make up, in order. -/
def sections : Cursor → List Line → List Entry
  | cursor, [] => cursor.finish
  | .between _, .gap :: ls => sections (.between true) ls
  | .within e, .gap :: ls =>
    if e.content.isEmpty then e :: sections (.between true) ls
    else sections (.within (e.addLine "")) ls
  | cursor, .tag name inline :: ls =>
    cursor.finish ++
      sections (.within ⟨String.ofList name, inline.map String.ofList, []⟩) ls
  | .between afterGap, .words t closes :: ls =>
    if (afterGap && !closes) || !Text.isBlank t then
      sections (.within ⟨descriptionTag, none, [String.ofList t]⟩) ls
    else sections (.between afterGap) ls
  | .within e, .words t _ :: ls =>
    if Text.isBlank t then sections (.within e) ls
    else sections (.within (e.addLine (String.ofList t))) ls

/-- The lines of a comment, each told what it is. -/
def linesOf (t : Text) : List Line := (trimmedLines (trim t)).map Line.ofText

/-- The sections of a comment in normal form, in order. -/
def sectionsOf (t : Text) : List Entry := sections (.between false) (linesOf t)

/-- The entries of a comment in normal form. -/
def segment (comment : String) : Entries := Entries.ofList (sectionsOf comment.toList)

/-- The entries of any comment. -/
def entries (comment : String) : Entries := segment (normalize comment)

end DocComment.Comment
