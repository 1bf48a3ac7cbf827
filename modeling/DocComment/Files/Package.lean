/-
Packages, described by a file `package.json` in their folder.

`Package.nearest` looks for the description in the folder of a path and in the folders above it and
reads the first that is there.
-/
import DocComment.Files.Tree
import DocComment.Json.Reader

namespace DocComment

structure Package where
  name : Option String
  version : Option String := none
  /-- The folder of the package. -/
  root : Path := ⟨""⟩
deriving DecidableEq, Repr, Inhabited

/-- An optional text among named members: a missing member and null are none. -/
def Json.optionalString? (members : Keyed Json) (key : String) : Option (Option String) :=
  match Keyed.get? members key with
  | none | some .null => some none
  | some (.string s) => some (some s)
  | some _ => none

namespace Package

/-- Why a description that is there could not be taken. -/
inductive Failure where
  | unreadable (file : Path)
  | malformed (file : Path)
deriving DecidableEq, Repr

def ofJson? (root : Path) (j : Json) : Option Package := do
  let members ← j.fields? ["name", "version"]
  return ⟨← Json.optionalString? members "name", ← Json.optionalString? members "version", root⟩

/-- Reads the description in a folder. -/
def readAt (tree : FileTree) (folder : Path) : Except Failure Package :=
  let file := folder.join ⟨"package.json"⟩
  match tree.read? file with
  | none => .error (.unreadable file)
  | some s =>
    match (Json.parse? s).bind (ofJson? folder) with
    | none => .error (.malformed file)
    | some p => .ok p

/-- The folders in which the description of a path's package may lie, the nearest first. -/
def foldersOf (tree : FileTree) (p : Path) : List Path :=
  if tree.isFolder p then p.withAbove else p.above

/-- The package that a path belongs to. -/
def nearest (tree : FileTree) (p : Path) : Except Failure (Option Package) :=
  match (foldersOf tree p).find? fun f => tree.isFile (f.join ⟨"package.json"⟩) with
  | none => .ok none
  | some folder => (readAt tree folder).map some

end Package

end DocComment
