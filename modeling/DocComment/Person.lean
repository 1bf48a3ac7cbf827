/-
People, as `Name <email> (address)` with any of the three parts missing.

`Person.parse?` reads the parts from left to right:

* the name is the shortest stretch without `<` and `(` after which the rest can be read, and there
  is no name only if none can be;
* the email stands in angle brackets, the address in parentheses, blanks may stand between;
* without an address the text has to end, after an address anything may follow.

Design notes: the rest after a name is `Tail`; a text is tried with names of growing length
(`nameAndTail?`), which is recursion on the text.
-/
import DocComment.Text.Cut
import DocComment.Value

namespace DocComment

structure Person where
  name : Option String
  email : Option String
  url : Option String
  /-- The text that the parts come from. -/
  raw : String
deriving DecidableEq, Repr

namespace Person

open Text

/-- The nonempty text up to the character `last`, without any of the characters `without`, and
what follows. -/
def upTo? (last : Char) (without : List Char) (t : Text) : Option (Text × Text) :=
  let inner := t.takeWhile fun c => c != last && !without.contains c
  match t.drop inner.length with
  | [] => none
  | c :: rest => if inner.isEmpty || c != last then none else some (inner, rest)

/-- The parts after the name. -/
structure Tail where
  email : Option Text
  url : Option Text

/-- An address, or the end of the text. -/
def address? (t : Text) : Option (Option Text) :=
  match t.dropWhile isIndent with
  | [] => some none
  | '(' :: t => (upTo? ')' [] t).map fun (url, _) => some url
  | _ => none

/-- An email and an address, either of which may be missing. -/
def tail? (t : Text) : Option Tail :=
  let t := t.dropWhile isIndent
  let withEmail : Option Tail :=
    match t with
    | '<' :: t => do
      let (email, rest) ← upTo? '>' ['('] t
      some ⟨some email, ← address? rest⟩
    | _ => none
  withEmail.or ((address? t).map fun url => ⟨none, url⟩)

/-- The shortest name after which the rest can be read. -/
def nameAndTail? : Text → Option (Text × Tail)
  | [] => none
  | c :: t =>
    if c == '<' || c == '(' then none
    else match tail? t with
      | some tail => some ([c], tail)
      | none => (nameAndTail? t).map fun (name, tail) => (c :: name, tail)

/-- A part, trimmed; none if that leaves nothing. -/
def part (t : Option Text) : Option String := do
  let t := trim (← t)
  if t.isEmpty then none else some (String.ofList t)

/-- Reads a person; none if no part can be made out. -/
def parse? (s : String) : Option Person := do
  let t := s.toList
  let (name, tail) ←
    ((nameAndTail? t).map fun (name, tail) => (some name, tail)).or ((tail? t).map (none, ·))
  let p : Person := ⟨part name, part tail.email, part tail.url, s⟩
  if p.name.isNone && p.email.isNone && p.url.isNone then none else some p

/-- The parts that are there, and the text they come from. -/
def toValue (p : Person) : Value :=
  let field (key : String) (s : Option String) : Record := (s.map fun s => (key, .text s)).toList
  .record (field "name" p.name ++ field "email" p.email ++ field "url" p.url ++
    [("raw", .text p.raw)])

end Person

end DocComment
