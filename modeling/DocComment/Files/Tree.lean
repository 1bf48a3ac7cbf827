/-
File trees.

A file tree lists files, each under the names on the way to it, and folders that are empty.  It is
all that reading and walking can see, and paths are relative to its root.

* `locate?` follows a path segment by segment; only folders can be passed through;
* `read` gives the text of a file, and fails for folders and for what is no text;
* `filesUnder` lists the files below a folder, folders in depth and names in order.

Design notes: a folder is there because something lies in it or because it is listed, so a tree is
a flat list and facts about it are facts about lists.  Walking in depth with sorted names is the
lexicographic order on lists of names.
-/
import DocComment.Files.Path

namespace DocComment

/-- What lies at a place in a tree. -/
inductive FileItem where
  | text (s : String)
  /-- A file that is no text. -/
  | binary
  | folder
deriving DecidableEq, Repr, Inhabited

structure FileTree where
  items : List (List String × FileItem)
deriving Repr, Inhabited

namespace FileTree

/-- What lies under a list of names. -/
def at? (tree : FileTree) (names : List String) : Option FileItem :=
  if names.isEmpty then some .folder
  else match tree.items.find? (·.1 = names) with
    | some item => some item.2
    | none => if tree.items.any fun item => names.isPrefixOf item.1 then some .folder else none

def isFolderAt (tree : FileTree) (names : List String) : Bool := tree.at? names == some .folder

/-- One step along a path. -/
def follow? (tree : FileTree) (names : List String) (segment : Text) : Option (List String) :=
  if segment.isEmpty || segment == ['.'] then
    if tree.isFolderAt names then some names else none
  else if segment == ['.', '.'] then
    if tree.isFolderAt names && !names.isEmpty then some names.dropLast else none
  else some (names ++ [String.ofList segment])

/-- The names that a path leads to. -/
def locate? (tree : FileTree) (p : Path) : Option (List String) :=
  if p.text.isEmpty || p.isAbsolute then none
  else p.reversedSegments.reverse.foldlM tree.follow? []

def item? (tree : FileTree) (p : Path) : Option FileItem := do tree.at? (← tree.locate? p)

def exists? (tree : FileTree) (p : Path) : Bool := (tree.item? p).isSome

def isFolder (tree : FileTree) (p : Path) : Bool := tree.item? p == some .folder

def isFile (tree : FileTree) (p : Path) : Bool := tree.exists? p && !tree.isFolder p

/-- The text of a file; none for anything else. -/
def read? (tree : FileTree) (p : Path) : Option String :=
  match tree.item? p with
  | some (.text s) => some s
  | _ => none

/-- The files below a folder, with their names from there on, in order. -/
def filesUnder (tree : FileTree) (folder : List String) : List (List String × FileItem) :=
  let below := tree.items.filterMap fun (names, item) =>
    if item = .folder then none else (folder.isPrefixOf? names).map (·, item)
  below.mergeSort fun a b => !decide (b.1 < a.1)

end FileTree

end DocComment
