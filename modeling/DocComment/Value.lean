/-
Values: what tags mean.

A value is a tree of lists and records over plain leaves, with one leaf more than JSON has:
markdown, a text that may be rendered.

* `toJson` forgets which texts are markdown, `ofJson` reads plain data back;
* `write` spells a value as JSON text without going through a document;
* `isTruthy` is what orderings and predicates ask of a value.
-/
import DocComment.Json.Writer

namespace DocComment

inductive Value where
  | null
  | bool (b : Bool)
  | number (n : Number)
  | text (s : String)
  /-- A text that may be rendered. -/
  | markdown (s : String)
  | list (items : List Value)
  | record (fields : List (String × Value))
deriving Repr, Inhabited

/-- An ordered record, the shape of an interpreted comment. -/
abbrev Record := Keyed Value

namespace Value

/-- The text of a text or markdown leaf. -/
def string? : Value → Option String
  | .text s | .markdown s => some s
  | _ => none

def bool? : Value → Option Bool
  | .bool b => some b
  | _ => none

def list? : Value → Option (List Value)
  | .list items => some items
  | _ => none

def record? : Value → Option Record
  | .record fields => some fields
  | _ => none

/-- The value under a key of a record. -/
def get? (v : Value) (key : String) : Option Value := do Keyed.get? (← v.record?) key

/-- Null, false and empty texts are not truthy, all else is. -/
def isTruthy : Value → Bool
  | .null => false
  | .bool b => b
  | .text s | .markdown s => s ≠ ""
  | _ => true

/-- A text, or null for none. -/
def ofText? (s : Option String) : Value := (s.map text).getD null

/-- Markdown of one line is rendered without a paragraph around it. -/
def isSingleLine (s : String) : Bool := !s.toList.contains '\n'

/-! ### Plain data -/

mutual

/-- The value as plain data. -/
def toJson : Value → Json
  | .null => .null
  | .bool b => .bool b
  | .number n => .number n
  | .text s | .markdown s => .string s
  | .list items => .array (toJsonItems items)
  | .record fields => .object (toJsonMembers fields)

def toJsonItems : List Value → List Json
  | [] => []
  | v :: vs => toJson v :: toJsonItems vs

def toJsonMembers : List (String × Value) → List (String × Json)
  | [] => []
  | (k, v) :: fs => (k, toJson v) :: toJsonMembers fs

end

mutual

/-- Plain data as a value, with `leaf` for its strings. -/
def ofJsonWith (leaf : String → Value) : Json → Value
  | .null => .null
  | .bool b => .bool b
  | .number n => .number n
  | .string s => leaf s
  | .array items => .list (ofItemsWith leaf items)
  | .object members => .record (ofMembersWith leaf members)

def ofItemsWith (leaf : String → Value) : List Json → List Value
  | [] => []
  | j :: js => ofJsonWith leaf j :: ofItemsWith leaf js

def ofMembersWith (leaf : String → Value) : List (String × Json) → List (String × Value)
  | [] => []
  | (k, j) :: ms => (k, ofJsonWith leaf j) :: ofMembersWith leaf ms

end

/-- Plain data as a value. -/
def ofJson (j : Json) : Value := ofJsonWith text j

/-- Plain data as a value, every string of it markdown. -/
def markdownOfJson (j : Json) : Value := ofJsonWith markdown j

mutual

/-- The value as JSON text on one line. -/
def write : Value → String
  | .null => "null"
  | .bool b => if b then "true" else "false"
  | .number n => n.text
  | .text s | .markdown s => Json.quoted s
  | .list items => "[" ++ ",".intercalate (writeItems items) ++ "]"
  | .record fields => "\x7b" ++ ",".intercalate (writeMembers fields) ++ "\x7d"

def writeItems : List Value → List String
  | [] => []
  | v :: vs => write v :: writeItems vs

def writeMembers : List (String × Value) → List String
  | [] => []
  | (k, v) :: fs => (Json.quoted k ++ ":" ++ write v) :: writeMembers fs

end

end Value

end DocComment
