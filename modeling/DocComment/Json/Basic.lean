/-
JSON documents.

The keys of an object keep their order, and every object built here has each key once.
-/
import DocComment.Keyed
import DocComment.Number.Basic

namespace DocComment

inductive Json where
  | null
  | bool (b : Bool)
  | number (n : Number)
  | string (s : String)
  | array (items : List Json)
  | object (members : List (String × Json))
deriving Repr, Inhabited

namespace Json

/-- The value under a key of an object. -/
def get? : Json → String → Option Json
  | .object members, key => Keyed.get? members key
  | _, _ => none

def string? : Json → Option String
  | .string s => some s
  | _ => none

def bool? : Json → Option Bool
  | .bool b => some b
  | _ => none

def array? : Json → Option (List Json)
  | .array items => some items
  | _ => none

def object? : Json → Option (Keyed Json)
  | .object members => some members
  | _ => none

/-- An array of strings. -/
def strings? (j : Json) : Option (List String) := do (← j.array?).mapM string?

/-- The members that an object, or an array in its place, gives for a row of field names.  An
array lists the fields in their order and may stop early. -/
def fields? (names : List String) : Json → Option (Keyed Json)
  | .object members => some members
  | .array items => if items.length ≤ names.length then some (names.zip items) else none
  | _ => none

end Json

end DocComment
