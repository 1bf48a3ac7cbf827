/-
Tags that mean their inline text.

* `simple` — the inline text of the first occurrence, `true` for a bare tag;
* `repeatable` — the same for every occurrence, as a list;
* `namespace_` — a dotted slug, with the name of the package in front;
* `menu` — a place in a tree of menus with its address.
-/
import DocComment.Slug
import DocComment.Tag.Interpreter
import DocComment.Text.Column

namespace DocComment.Tag

open Text

/-- The inline text, or `true` for a bare tag and for a blank text. -/
def entryValue (e : Entry) : Value :=
  match e.inline with
  | some s => if Text.isBlank s.toList then .bool true else .text s
  | none => .bool true

def simple : Interpreter := fun _ es => .ok (es.head?.map entryValue)

def repeatable : Interpreter := fun _ es => .ok (some (.list (es.map entryValue)))

/-- The first slash of a package name parts its scope from it and becomes a dot. -/
def scopeDotted (name : Text) : Text :=
  match cutAt? (· == '/') name with
  | some (scope, rest) => scope ++ '.' :: rest
  | none => name

/-- The spelling of a namespace, in a package or in none. -/
def namespaceOf (package : Option Package) (s : String) : String :=
  let t := hyphenate s.toList
  match package.bind Package.name with
  | some name =>
    if name.isEmpty then String.ofList (Slug.dottedOf t)
    else String.ofList (Slug.dottedOf (scopeDotted name.toList ++ '.' :: t))
  | none => String.ofList (Slug.dottedOf t)

def namespace_ : Interpreter := fun ctx es =>
  .ok (es.head?.map fun e =>
    match e.inlineText? with
    | none => .bool true
    | some s => .text (namespaceOf ctx.package s))

/-- The labels on the way to a menu item. -/
def menuLabels (path : Text) : List String :=
  (path.splitOn '/').map fun label => String.ofList (trim label)

/-- The address that the labels of a path make up. -/
def menuSlug (path : Text) : String :=
  String.ofList (['/'].intercalate (((path.splitOn '/').map Slug.urlOf).filter (!·.isEmpty)))

/-- `path  slug`; a missing slug is made from the path. -/
def menuItem (s : String) : Value :=
  let fields := columnsOf s.toList
  let path := fields.headD []
  let slug := match fields[1]? with
    | some slug => String.ofList slug
    | none => menuSlug path
  .record [("tree", .list ((menuLabels path).map .text)), ("slug", .text slug)]

def menu : Interpreter := fun _ es =>
  .ok (es.head?.map fun e =>
    match e.inlineText? with
    | none => entryValue e
    | some _ => menuItem (e.inline.getD ""))

end DocComment.Tag
