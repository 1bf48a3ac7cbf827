/-
Settings: what a configuration file can say about parsing.

* `Settings.ofJson?` reads them; members that are missing have their default, members that are
  unknown are ignored, a member of another type is refused;
* `Settings.toJson` writes them all, the file path only if there is one.
-/
import DocComment.Files.Path
import DocComment.Json.Basic

namespace DocComment

/-- What a markdown renderer is told. -/
structure MarkdownOptions where
  /-- Tables, bare addresses, crossed out text. -/
  gfm : Bool := false
deriving DecidableEq, Repr, Inhabited

structure Settings where
  /-- The file that the text comes from. -/
  filePath : Option Path := none
  renderMarkdown : Bool := false
  /-- The paths under which plain texts are markdown too. -/
  renderMarkdownProps : List String := []
  markdown : MarkdownOptions := {}
  /-- For each tag, a matcher or a list of matchers. -/
  filterByTag : Keyed Json := []
  /-- Further tags, each with the tag whose interpreter it takes. -/
  tags : Keyed String := []
deriving Repr, Inhabited

/-- A member read with `f`, or its default. -/
def Json.member? {α : Type} (members : Keyed Json) (key : String) (f : Json → Option α)
    (default : α) : Option α :=
  match Keyed.get? members key with
  | none => some default
  | some j => f j

namespace MarkdownOptions

def ofJson? (j : Json) : Option MarkdownOptions := do
  return ⟨← Json.member? (← j.fields? ["gfm"]) "gfm" Json.bool? false⟩

def toJson (o : MarkdownOptions) : Json := .object [("gfm", .bool o.gfm)]

end MarkdownOptions

namespace Settings

/-- The members, in the order in which they are written. -/
def fieldNames : List String :=
  ["filePath", "renderMarkdown", "renderMarkdownProps", "markdown", "filterByTag", "tags"]

def path? : Json → Option (Option Path)
  | .null => some none
  | .string s => some (some ⟨s⟩)
  | _ => none

/-- An object whose members are strings. -/
def stringMap? (j : Json) : Option (Keyed String) := do
  (← j.object?).mapM fun (k, v) => do return (k, ← v.string?)

def ofMembers? (members : Keyed Json) : Option Settings := do
  return {
    filePath := ← Json.member? members "filePath" path? none
    renderMarkdown := ← Json.member? members "renderMarkdown" Json.bool? false
    renderMarkdownProps := ← Json.member? members "renderMarkdownProps" Json.strings? []
    markdown := ← Json.member? members "markdown" MarkdownOptions.ofJson? {}
    filterByTag := ← Json.member? members "filterByTag" Json.object? []
    tags := ← Json.member? members "tags" stringMap? []
  }

def ofJson? (j : Json) : Option Settings := do ofMembers? (← j.fields? fieldNames)

def toJson (s : Settings) : Json :=
  .object ((s.filePath.map fun p => ("filePath", Json.string p.text)).toList ++
    [("renderMarkdown", .bool s.renderMarkdown),
     ("renderMarkdownProps", .array (s.renderMarkdownProps.map .string)),
     ("markdown", s.markdown.toJson),
     ("filterByTag", .object s.filterByTag),
     ("tags", .object (s.tags.map fun (k, v) => (k, .string v)))])

/-- Nothing differs from its default. -/
def isDefault (s : Settings) : Bool :=
  s.filePath.isNone && !s.renderMarkdown && s.renderMarkdownProps.isEmpty && !s.markdown.gfm &&
    s.filterByTag.isEmpty && s.tags.isEmpty

end Settings

end DocComment
