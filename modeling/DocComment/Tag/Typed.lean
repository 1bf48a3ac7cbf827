/-
Tags with types: parameters, results and types.

* `type_` — the type expression that is the inline text;
* `return_` — a type expression and a description;
* `param` — parameters under their names, a later one in place of an earlier one.

A parameter is written `type  name  description`.  A name in square brackets is optional and may
carry a default after an equals sign; the default is a literal, or its own text if it is none.

Design notes: the first parameter whose type cannot be read fails the whole tag, so `param` is a
fold that may stop.
-/
import DocComment.Literal
import DocComment.Tag.Interpreter
import DocComment.Text.Column

namespace DocComment.Tag

open Text

/-- The type expression of a column, in braces or not. -/
def typeOf (s : String) : Except Fault TypeUnion :=
  (TypeUnion.parse (TypeUnion.braced s)).mapError .unbalancedType

def type_ : Interpreter := fun _ es =>
  match es.head?.bind Entry.inlineText? with
  | none => .ok none
  | some s => (typeOf s).map fun u => some u.toValue

def return_ : Interpreter := fun _ es =>
  match es.head?.bind Entry.inlineText? with
  | none => .ok none
  | some s =>
    let fields := columns s
    (typeOf (fields.headD "")).map fun u =>
      some (.record [("type", u.toValue), ("description", .text (fields[1]?.getD ""))])

/-- The name of a parameter, with what its brackets say. -/
structure Variable where
  name : String
  optional : Bool := false
  default : Option String := none
deriving DecidableEq, Repr

/-- Reads `name`, `[name]` or `[name=default]`. -/
def Variable.parse (s : String) : Variable :=
  match TypeExpr.between? '[' ']' s.toList with
  | none => { name := s }
  | some inner =>
    match cutAt? (· == '=') inner with
    | some (name, default) =>
      ⟨String.ofList (trim name), true, some (String.ofList (trim default))⟩
    | none => ⟨String.ofList (trim inner), true, none⟩

/-- The value of a default: null for none, the literal, or the text itself. -/
def Variable.defaultValue (v : Variable) : Value :=
  match v.default with
  | none => .null
  | some s => (Literal.parse? s).getD (.text s)

/-- The variable that an entry is about and the columns of its text; none without a name. -/
def variableOf? (e : Entry) : Option (Variable × List String) := do
  let fields := columns (← e.inlineText?)
  let v := Variable.parse (← fields[1]?)
  if v.name.isEmpty then none else some (v, fields)

/-- A parameter; its content only if there are lines under the tag. -/
def paramRecord (v : Variable) (type : TypeUnion) (description : Option String) (e : Entry) :
    Value :=
  .record
    ([("name", .text v.name), ("type", type.toValue), ("description", .ofText? description),
      ("optional", .bool v.optional), ("default", v.defaultValue),
      ("defaultStr", .text (v.default.getD ""))] ++
      if e.content.isEmpty then [] else [("content", .text e.joined)])

/-- Adds the parameter of an entry, if the entry names one. -/
def addParam (params : Record) (e : Entry) : Except Fault Record :=
  match variableOf? e with
  | none => .ok params
  | some (v, fields) =>
    match typeOf (fields.headD "") with
    | .error fault => .error (.parameterType v.name fault)
    | .ok type => .ok (params.insert v.name (paramRecord v type fields[2]? e))

def param : Interpreter := fun _ es =>
  (es.foldlM addParam []).map fun params => some (.record params)

end DocComment.Tag
