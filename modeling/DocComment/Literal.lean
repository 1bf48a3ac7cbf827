/-
Literals, as the defaults of parameters write them.

A literal is a JSON document or one of the laxer spellings in use: the word `undefined`, a text in
single quotes or backquotes, an array or object whose strings stand in single quotes.  `parse?`
tries them in that order; a text that is none of them is no literal.
-/
import DocComment.Json.Reader
import DocComment.TypeExpr

namespace DocComment.Literal

/-- The text inside single quotes or backquotes, escapes of single quotes resolved. -/
def quoted? (t : Text) : Option Text :=
  ((TypeExpr.between? '\x27' '\x27' t).or (TypeExpr.between? '\x60' '\x60' t)).map
    (Text.unescape '\x27')

/-- Every single quote becomes a double quote. -/
def requote (t : Text) : Text := t.map fun c => if c = '\x27' then '"' else c

/-- The first character of an array or object. -/
def isContainer (t : Text) : Bool := t.head? == some '[' || t.head? == some '\x7b'

/-- The value of a literal, on characters. -/
def ofText? (t : Text) : Option Value :=
  if t = "undefined".toList ∨ t = "null".toList then some .null
  else match quoted? t with
    | some s => some (.text (String.ofList s))
    | none =>
      match Json.parseText? t with
      | some j => some (.ofJson j)
      | none => if isContainer t then (Json.parseText? (requote t)).map .ofJson else none

/-- The value of a literal. -/
def parse? (s : String) : Option Value := ofText? (Text.trim s.toList)

end DocComment.Literal
