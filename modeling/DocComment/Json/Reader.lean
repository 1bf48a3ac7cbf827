/-
Reading JSON documents.

The tokens of a document drive a machine with a stack of open arrays and objects.  Each token takes
one step (`Reader.step?`), the document is read when all tokens are used up and the stack is empty
(`parse?`).

* A key that occurs again in an object keeps its first place and takes the last value.
* Arrays and objects nest at most `depthLimit` deep.

Design notes: the machine recurses on the list of tokens and on nothing else, so reading ends by
itself, and what a run of tokens does to the machine composes over appended runs (`run?_append`).
-/
import DocComment.Json.Basic
import DocComment.Json.Token

namespace DocComment.Json

/-- An open array or object, with what has been read of it. -/
inductive Frame where
  /-- The items so far, the last one first. -/
  | items (done : List Json)
  /-- The members so far, and the key whose value is being read. -/
  | members (done : Keyed Json) (key : String)

/-- What may come next. -/
inductive Reader where
  /-- A value. -/
  | value (stack : List Frame)
  /-- Just after the start of an array: a value or the end. -/
  | firstItem (stack : List Frame)
  /-- Just after the start of an object: a key or the end. -/
  | firstKey (stack : List Frame)
  /-- A further key of an object. -/
  | key (done : Keyed Json) (stack : List Frame)
  /-- The colon after a key. -/
  | colon (done : Keyed Json) (key : String) (stack : List Frame)
  /-- A value is complete: a comma, the end of its array or object, or the end of the document. -/
  | after (v : Json) (stack : List Frame)

/-- How deep arrays and objects may nest. -/
def depthLimit : Nat := 127

namespace Reader

/-- The step at a place where a value starts. -/
def valueStep? (stack : List Frame) : Token → Option Reader
  | .null => some (.after .null stack)
  | .bool b => some (.after (.bool b) stack)
  | .number n => some (.after (.number n) stack)
  | .string s => some (.after (.string s) stack)
  | .openBracket => if stack.length < depthLimit then some (.firstItem stack) else none
  | .openBrace => if stack.length < depthLimit then some (.firstKey stack) else none
  | _ => none

def step? : Reader → Token → Option Reader
  | .value stack, token => valueStep? stack token
  | .firstItem stack, .closeBracket => some (.after (.array []) stack)
  | .firstItem stack, token => valueStep? (.items [] :: stack) token
  | .firstKey stack, .closeBrace => some (.after (.object []) stack)
  | .firstKey stack, .string k => some (.colon [] k stack)
  | .key done stack, .string k => some (.colon done k stack)
  | .colon done k stack, .colon => some (.value (.members done k :: stack))
  | .after v (.items done :: stack), .comma => some (.value (.items (v :: done) :: stack))
  | .after v (.items done :: stack), .closeBracket =>
    some (.after (.array (v :: done).reverse) stack)
  | .after v (.members done k :: stack), .comma => some (.key (done.insert k v) stack)
  | .after v (.members done k :: stack), .closeBrace =>
    some (.after (.object (done.insert k v)) stack)
  | _, _ => none

def run? (r : Reader) (tokens : List Token) : Option Reader := tokens.foldlM step? r

theorem run?_append (r : Reader) (s t : List Token) :
    r.run? (s ++ t) = (r.run? s).bind (·.run? t) := by
  simp [run?, List.foldlM_append]

/-- The document, if it is complete. -/
def result? : Reader → Option Json
  | .after v [] => some v
  | _ => none

end Reader

/-- The document that a text holds. -/
def parseText? (t : Text) : Option Json := do
  let tokens ← tokens? t
  let reader ← (Reader.value []).run? tokens
  reader.result?

/-- The document that a text holds. -/
def parse? (s : String) : Option Json := parseText? s.toList

end DocComment.Json
