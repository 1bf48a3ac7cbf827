/-
Reading TOML documents.

A document is a sequence of lines, each empty, the header of a table or a key with its value; the
result is an object of the tables.  Keys may have several parts with points between.

The tokens drive a machine, as with JSON: `Reader.step?` takes one step for each, `Reader.place` is
what may come next.  A key or a header that comes again is refused.

This is a part of the format.  Refused are dates and times, arrays of tables, strings over several
lines, numbers that are not written in decimal, and keys that have quotes around only some of their
parts.

Design notes: a value on a line, in an array and in an inline table are read alike; the frames on
the stack say where it goes.
-/
import DocComment.Json.Reader
import DocComment.Toml.Token

namespace DocComment.Toml

/-- Where a value goes. -/
inductive Frame where
  /-- Under a key, on a line or in the inline table below. -/
  | entry (path : List String)
  /-- Into an array, after its items so far, the last one first. -/
  | items (done : List Json)
  /-- An open inline table. -/
  | members (done : Keyed Json)

/-- What may come next. -/
inductive Place where
  /-- A line. -/
  | line
  /-- The key of a header. -/
  | header
  /-- The bracket that closes the header of a table. -/
  | headerEnd (path : List String)
  /-- Nothing but the end of the line. -/
  | lineEnd
  /-- A key of an inline table. -/
  | key (done : Keyed Json) (stack : List Frame)
  /-- The equals sign after a key. -/
  | equals (path : List String) (stack : List Frame)
  | value (stack : List Frame)
  /-- A value is complete. -/
  | after (v : Json) (stack : List Frame)

structure Reader where
  root : Keyed Json := []
  /-- The table that lines go into. -/
  table : List String := []
  /-- The headers so far. -/
  headers : List (List String) := []
  place : Place := .line

/-- Puts a value under a path of keys; the last key has to be new and the others tables. -/
def insertAt? (v : Json) : List String → Keyed Json → Option (Keyed Json)
  | [], _ => none
  | [k], t => if t.contains k then none else some (t.insert k v)
  | k :: ks, t =>
    match t.get? k with
    | none => (insertAt? v ks []).map fun inner => t.insert k (.object inner)
    | some (.object inner) => (insertAt? v ks inner).map fun inner => t.insert k (.object inner)
    | some _ => none

/-- Makes sure that there is a table under a path of keys. -/
def ensureAt? : List String → Keyed Json → Option (Keyed Json)
  | [], t => some t
  | k :: ks, t =>
    match t.get? k with
    | none => (ensureAt? ks []).map fun inner => t.insert k (.object inner)
    | some (.object inner) => (ensureAt? ks inner).map fun inner => t.insert k (.object inner)
    | some _ => none

/-- The parts of a key written without quotes. -/
def keyOfWord? (t : Text) : Option (List String) :=
  let parts := t.splitOn '.'
  if parts.any fun p => p.isEmpty || p.contains '+' then none else some (parts.map String.ofList)

def keyOf? : Token → Option (List String)
  | .word t => keyOfWord? t
  | .quoted s => some [s]
  | _ => none

/-- The value of a word: a truth value or a number. -/
def atomOf? (t : Text) : Option Json :=
  if t = "true".toList then some (.bool true)
  else if t = "false".toList then some (.bool false)
  else
    let t := (Text.after? ['+'] t).getD t
    match Json.parseText? (t.filter (· ≠ '_')) with
    | some (.number n) => some (.number n)
    | _ => none

namespace Reader

def goTo (r : Reader) (p : Place) : Reader := { r with place := p }

/-- The step at a place where a value starts. -/
def valueStep? (r : Reader) (stack : List Frame) : Token → Option Reader
  | .word t => (atomOf? t).map fun v => r.goTo (.after v stack)
  | .quoted s => some (r.goTo (.after (.string s) stack))
  | .openBracket => some (r.goTo (.value (.items [] :: stack)))
  | .openBrace => some (r.goTo (.key [] stack))
  | _ => none

/-- The step after a value. -/
def afterStep? (r : Reader) (v : Json) : List Frame → Token → Option Reader
  | [.entry path], .newline =>
    (insertAt? v (r.table ++ path) r.root).map fun root => { r with root := root, place := .line }
  | .entry path :: .members done :: stack, .comma =>
    (insertAt? v path done).map fun done => r.goTo (.key done stack)
  | .entry path :: .members done :: stack, .closeBrace =>
    (insertAt? v path done).map fun done => r.goTo (.after (.object done) stack)
  | .items done :: stack, .comma => some (r.goTo (.value (.items (v :: done) :: stack)))
  | .items done :: stack, .closeBracket =>
    some (r.goTo (.after (.array (v :: done).reverse) stack))
  | .items done :: stack, .newline => some (r.goTo (.after v (.items done :: stack)))
  | _, _ => none

def step? (r : Reader) (token : Token) : Option Reader :=
  match r.place with
  | .line =>
    match token with
    | .newline => some r
    | .openBracket => some (r.goTo .header)
    | token => (keyOf? token).map fun path => r.goTo (.equals path [])
  | .header => (keyOf? token).map fun path => r.goTo (.headerEnd path)
  | .headerEnd path =>
    if token = .closeBracket ∧ path ∉ r.headers then
      (ensureAt? path r.root).map fun root =>
        ⟨root, path, path :: r.headers, .lineEnd⟩
    else none
  | .lineEnd => if token = .newline then some (r.goTo .line) else none
  | .key done stack =>
    match token with
    | .closeBrace => if done.isEmpty then some (r.goTo (.after (.object []) stack)) else none
    | token => (keyOf? token).map fun path => r.goTo (.equals path (.members done :: stack))
  | .equals path stack =>
    if token = .equals then some (r.goTo (.value (.entry path :: stack))) else none
  | .value stack =>
    match stack, token with
    | .items _ :: _, .newline => some r
    | .items done :: stack, .closeBracket => some (r.goTo (.after (.array done.reverse) stack))
    | stack, token => r.valueStep? stack token
  | .after v stack => r.afterStep? v stack token

/-- The document, if its last line is complete. -/
def result? (r : Reader) : Option (Keyed Json) :=
  match r.place with
  | .line => some r.root
  | _ => none

end Reader

/-- The tables of a document. -/
def parse? (s : String) : Option (Keyed Json) := do
  let reader ← (← tokens? s.toList).foldlM Reader.step? {}
  reader.result?

end DocComment.Toml
