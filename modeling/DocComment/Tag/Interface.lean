/-
The tag that carries an interface over into a comment.

The tag names a file and, after a blank, an export of it; a bare tag means the file that goes with
the documented file.  The interpreter puts two keys into the comment, `interface` for the summary
and `definition` for the fields.

In the fields every string is markdown, except that a string under `type` directly in a field is a
type expression.
-/
import DocComment.Tag.Typed

namespace DocComment.Tag

open Text

/-- The key under which an interpreter hands out keys of the comment. -/
def bundleKey : String := "tags"

/-- The folder of the documented file. -/
def folderOf (file : Option Path) : Path := (file.bind Path.parent?).getD ⟨""⟩

/-- The path of an interface and the name of its export. -/
def interfaceTarget? (file : Option Path) (e : Entry) : Option (Path × String) :=
  match e.inlineText? with
  | some s =>
    match cutAt? DocComment.isBlank s.toList with
    | some (path, name) =>
      some ((folderOf file).join ⟨String.ofList path⟩, String.ofList (trim name))
    | none => some ((folderOf file).join ⟨s⟩, "default")
  | none => (file.bind Path.stem?).map fun stem => ((folderOf file).join ⟨stem⟩, "default")

/-- A member of a field: the type is read, all else is markdown. -/
def fieldMember (field : String) : String × Json → Except Fault (String × Value)
  | ("type", .string s) =>
    match typeOf s with
    | .error fault => .error (.fieldType field fault)
    | .ok type => .ok ("type", type.toValue)
  | (key, j) => .ok (key, .markdownOfJson j)

/-- What is said of a field. -/
def fieldValue (field : String) : Json → Except Fault Value
  | .object members => (members.mapM (fieldMember field)).map .record
  | j => .ok (.markdownOfJson j)

/-- The fields of an interface, in their order. -/
def definitionOf (fields : Keyed Json) : Except Fault Record :=
  fields.mapM fun (field, j) => (fieldValue field j).map (field, ·)

def interfaceSummary (i : Interface) (path : Path) (name : String) : Value :=
  .record
    [("name", .ofText? i.name), ("description", (i.description.map .markdown).getD .null),
     ("path", .text path.text), ("export", .text name)]

/-- The keys that an interface puts into a comment. -/
def interfaceBundle (i : Interface) (path : Path) (name : String) : Except Fault Value :=
  (definitionOf i.definition).map fun definition =>
    .record [(bundleKey, .record
      [("interface", interfaceSummary i path name), ("definition", .record definition)])]

def interface_ : Interpreter := fun ctx es =>
  match es.head?.bind (interfaceTarget? ctx.filePath) with
  | none => .ok none
  | some (path, name) =>
    match Interface.load ctx.files path name with
    | .error fault => .error fault
    | .ok none => .ok none
    | .ok (some i) => (interfaceBundle i path name).map some

end DocComment.Tag
