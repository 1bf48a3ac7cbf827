/-
Interfaces: named sets of fields, described in JSON files.

A file describes one interface, or several by name (its exports).  An interface has a `definition`,
the fields with what is said of each.

* `Interface.fileOf?` finds the file for a path: the path itself, with the ending `.json`, or the
  file `index.json` in the folder of that name;
* `Interface.select?` picks the export, or the whole document if that is an interface.
-/
import DocComment.Fault
import DocComment.Files.Package

namespace DocComment

structure Interface where
  name : Option String
  description : Option String
  /-- The fields, each with what is said of it. -/
  definition : Keyed Json
deriving Repr, Inhabited

namespace Interface

/-- The files that may describe the interface at a path. -/
def candidates (p : Path) : List Path := [p, ⟨p.text ++ ".json"⟩, p.join ⟨"index.json"⟩]

def fileOf? (tree : FileTree) (p : Path) : Option Path := (candidates p).find? tree.isFile

def isInterface (j : Json) : Bool := (j.get? "definition").isSome

/-- The description under a name; the whole document if there is none. -/
def select? (j : Json) (name : String) : Option Json :=
  match j.get? name with
  | some named => if isInterface named then some named else if isInterface j then some j else none
  | none => if isInterface j then some j else none

def ofJson? (j : Json) : Option Interface := do
  let members ← j.object?
  let definition ← match Keyed.get? members "definition" with
    | none => some []
    | some d => d.object?
  return ⟨← Json.optionalString? members "name", ← Json.optionalString? members "description",
    definition⟩

/-- Loads the interface at a path; none if no file describes it. -/
def load (tree : FileTree) (p : Path) (name : String) : Except Fault (Option Interface) :=
  match fileOf? tree p with
  | none => .ok none
  | some file =>
    match tree.read? file with
    | none => .error (.unreadableFile file)
    | some s =>
      match Json.parse? s with
      | none => .error (.malformedJson file)
      | some j =>
        match select? j name with
        | none => .error (.noExport file name)
        | some d =>
          match ofJson? d with
          | none => .error (.malformedJson file)
          | some i => .ok (some i)

end Interface

end DocComment
