/-
Interpreters: from the entries of a tag to what the tag means.

An interpreter is a function of the context and of all entries of one tag.  It may find nothing to
say (`none`), and it may fail with a fault; neither touches any other tag.

A registry gives interpreters to tags, in the order in which the tags were registered.

* `Registry.register` replaces in place or appends;
* `Registry.addAlias` gives a tag the interpreter of another one, which has to be there;
* `Registry.withAliases` does so for a list of pairs, each seeing the ones before it.
-/
import DocComment.Comment.Entry
import DocComment.Fault
import DocComment.Files.Interface
import DocComment.Settings
import DocComment.Value

namespace DocComment

/-- Renders markdown, whole paragraphs or a single line. -/
structure Renderer where
  block : MarkdownOptions → String → Except Fault String
  inline : MarkdownOptions → String → Except Fault String

/-- Leaves every text as it is. -/
def Renderer.plain : Renderer := ⟨fun _ s => .ok s, fun _ s => .ok s⟩

/-- What an interpreter may look at besides the entries. -/
structure Context where
  /-- The file that the comment comes from. -/
  filePath : Option Path := none
  package : Option Package := none
  /-- Whether values are rendered. -/
  renderMarkdown : Bool := false
  renderMarkdownProps : List String := []
  markdown : MarkdownOptions := {}
  renderer : Renderer
  /-- The files that interfaces are read from. -/
  files : FileTree := ⟨[]⟩

/-- The context that settings describe. -/
def Context.ofSettings (s : Settings) (package : Option Package) (renderer : Renderer)
    (files : FileTree) : Context where
  filePath := s.filePath
  package := package
  renderMarkdown := s.renderMarkdown
  renderMarkdownProps := s.renderMarkdownProps
  markdown := s.markdown
  renderer := renderer
  files := files

abbrev Interpreter := Context → List Entry → Except Fault (Option Value)

/-- An alias names a tag that has no interpreter. -/
structure UnknownTarget where
  tag : String
  target : String
deriving DecidableEq, Repr

abbrev Registry := Keyed Interpreter

namespace Registry

def register (r : Registry) (tag : String) (i : Interpreter) : Registry := Keyed.insert r tag i

/-- Registers one interpreter under several tags. -/
def registerAll (r : Registry) (tags : List String) (i : Interpreter) : Registry :=
  tags.foldl (fun r tag => r.register tag i) r

def addAlias (r : Registry) (tag target : String) : Except UnknownTarget Registry :=
  match Keyed.get? r target with
  | some i => .ok (r.register tag i)
  | none => .error ⟨tag, target⟩

def withAliases (r : Registry) (aliases : Keyed String) : Except UnknownTarget Registry :=
  aliases.foldlM (fun r (tag, target) => r.addAlias tag target) r

theorem get?_register (r : Registry) (tag : String) (i : Interpreter) (t : String) :
    Keyed.get? (r.register tag i) t = if t = tag then some i else Keyed.get? r t :=
  Keyed.get?_insert ..

end Registry

end DocComment
