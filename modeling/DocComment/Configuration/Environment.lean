/-
Configuration from environment variables.

A variable whose name starts with the mark `DOCBLOCK_`, in letters of any case, sets the member that
the rest of its name spells: `RENDER_MARKDOWN` sets `renderMarkdown`, and points lead into objects.

Its value is read as a truth value, a number, a list in square brackets, an object in braces or a
quoted string; a value that cannot be read as a whole is the string it is.

Design notes: every part of a value takes at least one character or ends its list, so twice the
length of the text bounds the depth of reading (`valueOf`).
-/
import DocComment.Json.Reader
import DocComment.Text.Uppercase

namespace DocComment.Environment

/-! ### Names -/

def mark : Text := "DOCBLOCK_".toList

/-- Words between underscores, run together with capitals. -/
def camelFrom (capital : Bool) : Text → Text
  | [] => []
  | c :: t =>
    if c = '_' then camelFrom true t
    else if capital then uppercase c ++ camelFrom false t
    else lowercase c ++ camelFrom false t

/-- The path of keys that a variable sets; none for other variables. -/
def pathOf? (name : String) : Option (List String) := do
  let t := name.toList
  if (t.take mark.length).map Char.toUpper ≠ mark then none
  let rest := t.drop mark.length
  let parts := (camelFrom false rest).splitOn '.'
  if parts.any List.isEmpty then none else some (parts.map String.ofList)

/-! ### Values -/

/-- What ends a word. -/
def isSeparator (c : Char) : Bool :=
  c == ',' || c == '\x7b' || c == '\x7d' || c == '[' || c == ']'

def isKeyChar (c : Char) : Bool := c.isAlphanum || c == '_' || c == '-'

def skip (t : Text) : Text := t.dropWhile Char.isWhitespace

def infinity : Number := .real 0x7ff0000000000000

/-- Numbers that are written in words. -/
def namedNumber? (t : Text) : Option Number :=
  match String.ofList (Text.lowercase t) with
  | "inf" | "infinity" => some infinity
  | "nan" => some (.real 0x7ff8000000000000)
  | _ => none

/-- The digits after a point, which may be missing. -/
def fractionOf : Text → List Nat × Text
  | '.' :: t => (Json.digitsOf t, Json.afterDigits t)
  | t => ([], t)

/-- A number with a sign or not, in words or with digits before or after the point. -/
def number? (t : Text) : Option Number :=
  let (negative, t) := Json.exponentSign t
  (namedNumber? t).or do
    let whole := Json.digitsOf t
    let (fraction, t) := fractionOf (Json.afterDigits t)
    if whole.isEmpty && fraction.isEmpty then none
    else
      let (exponent, t) ← Json.exponent? t
      if t.isEmpty then
        some ((Numeral.value? ⟨negative, whole, fraction, exponent⟩).getD infinity)
      else none

/-- The value of a word. -/
def wordValue (t : Text) : Json :=
  if t = "true".toList then .bool true
  else if t = "false".toList then .bool false
  else match number? t with
    | some n => .number n
    | none => .string (String.ofList t)

/-- The key of a member and what follows the equals sign. -/
def key? (t : Text) : Option (String × Text) :=
  let t := skip t
  let parsed := match t with
    | '"' :: t => Json.stringBody? t
    | t =>
      let key := t.takeWhile isKeyChar
      if key.isEmpty then none else some (key, t.drop key.length)
  match parsed with
  | none => none
  | some (key, t) => (Text.after? ['='] (skip t)).map (String.ofList key, ·)

mutual

/-- The value at the start of a text and what follows it. -/
def value? (fuel : Nat) (t : Text) : Option (Json × Text) :=
  match fuel with
  | 0 => none
  | fuel + 1 => do
    let (v, t) ← match skip t with
      | '[' :: t => (items? fuel [] t).map fun (items, t) => (Json.array items, t)
      | '\x7b' :: t => (members? fuel [] t).map fun (members, t) => (Json.object members, t)
      | '"' :: t => (Json.stringBody? t).map fun (s, t) => (Json.string (String.ofList s), t)
      | '\x27' :: c :: '\x27' :: t => some (Json.string (String.ofList [c]), t)
      | '\x27' :: _ => none
      | t => some (wordValue (Text.trim (t.takeWhile fun c => !isSeparator c)),
          t.dropWhile fun c => !isSeparator c)
    return (v, skip t)

/-- The rest of a list, after the items so far, the last one first. -/
def items? (fuel : Nat) (done : List Json) (t : Text) : Option (List Json × Text) :=
  match fuel with
  | 0 => none
  | fuel + 1 =>
    match t with
    | ']' :: t => some (done.reverse, t)
    | t =>
      match value? fuel t with
      | some (v, ',' :: t) => items? fuel (v :: done) t
      | some (v, ']' :: t) => some ((v :: done).reverse, t)
      | _ => none

/-- The rest of an object. -/
def members? (fuel : Nat) (done : Keyed Json) (t : Text) : Option (Keyed Json × Text) :=
  match fuel with
  | 0 => none
  | fuel + 1 =>
    match t with
    | '\x7d' :: t => some (done, t)
    | t =>
      match key? t with
      | none => none
      | some (key, t) =>
        match value? fuel t with
        | some (v, ',' :: t) => members? fuel (done.insert key v) t
        | some (v, '\x7d' :: t) => some (done.insert key v, t)
        | _ => none

end

/-- The value of a variable. -/
def valueOf (s : String) : Json :=
  let t := s.toList
  match value? (2 * t.length + 2) t with
  | some (v, []) => v
  | _ => .string s

/-- A value under a path of keys. -/
def nested (v : Json) : List String → Json
  | [] => v
  | k :: ks => .object [(k, nested v ks)]

/-- What a variable sets. -/
def layerOf? (name value : String) : Option Json := (pathOf? name).map (nested (valueOf value))

end DocComment.Environment
