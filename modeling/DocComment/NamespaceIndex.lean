/-
The index of a folder by namespace.

The index lists, for each file below a folder, the first block of its document under the namespace
and the name that the block has.  Names that start with a dot and places that a glob excludes are
left out, with all that lies below them; so are files that are no text or do not mention the tag.

* `isVisited` tells which files are looked at, `entryOf` what a file adds;
* a key that comes again keeps its place and takes the later entry.

Files that list what to ignore are files like others here: nothing is left out because of them.

Design notes: an excluded folder hides all below it, so a file is visited when no place on the way
to it is excluded.
-/
import DocComment.Document
import DocComment.Files.Glob

namespace DocComment

namespace NamespaceIndex

/-- The globs that stand in for an empty list. -/
def defaultExcludes : List String := ["**/__tests__/**", "**/__wip__/**"]

/-- The globs of a list; the first one that cannot be read. -/
def readGlobs (exclude : List String) : Except Error (List Glob) :=
  (if exclude.isEmpty then defaultExcludes else exclude).mapM fun s =>
    match Glob.parse? s with
    | some g => .ok g
    | none => .error (.invalidGlob s)

def isHidden (name : String) : Bool := name.toList.head? == some '.'

/-- The places on the way to a file, the file itself last. -/
def wayTo (names : List String) : List (List String) :=
  (List.range names.length).map fun i => names.take (i + 1)

/-- Whether a file, given by its names below the folder, is looked at. -/
def isVisited (globs : List Glob) (names : List String) : Bool :=
  !names.any isHidden &&
    !(wayTo names).any fun place =>
      globs.any (·.isAt place (place.length < names.length))

/-- The text mentions the tag. -/
def mentionsTag (text : String) : Bool :=
  (Text.cutAtWord? "@namespace".toList text.toList).isSome

/-- The texts to look at below a folder, each with its names, in order. -/
def sources (tree : FileTree) (globs : List Glob) (folder : List String) :
    List (List String × String) :=
  (tree.filesUnder folder).filterMap fun (names, item) =>
    match item with
    | .text s => if isVisited globs names && mentionsTag s then some (names, s) else none
    | _ => none

/-- What the record of a file's first block adds to the index, if it has a namespace. -/
def entryOf (file : Path) (names : List String) (r : Record) : Option (String × Record) := do
  let r := Keyed.erase r "raw"
  let ns ← (← Keyed.get? r "namespace").string?
  let name := ((Keyed.get? r "name").bind Value.string?).getD (file.stem?.getD "")
  return (ns ++ "." ++ name, Keyed.insert r "path" (.text ("/".intercalate names)))

/-- Adds a file to the index, with the failures met so far. -/
def addFile (o : Options) (folder : Path) (done : Keyed Record × List TagFailure)
    (source : List String × String) : Except Error (Keyed Record × List TagFailure) := do
  let (names, text) := source
  let file := names.foldl (fun p name => p.join ⟨name⟩) folder
  let options := { o with settings := { o.settings with filePath := some file } }
  let (document, failures) ← Document.parse ⟨text, options, none⟩
  let failures := done.2 ++ failures
  match (document.blocks?.getD []).head?.bind fun b => entryOf file names b.record with
  | some (key, r) => return (Keyed.insert done.1 key r, failures)
  | none => return (done.1, failures)

end NamespaceIndex

/-- The index of a folder, and the failures met on the way; a folder that is not there has an empty
index. -/
def Options.namespaceIndex (o : Options) (folder : Path) (exclude : List String) :
    Except Error (Keyed Record × List TagFailure) := do
  if !o.files.isFolder folder then return ([], [])
  let globs ← NamespaceIndex.readGlobs exclude
  let names := (o.files.locate? folder).getD []
  (NamespaceIndex.sources o.files globs names).foldlM (NamespaceIndex.addFile o folder) ([], [])

end DocComment
