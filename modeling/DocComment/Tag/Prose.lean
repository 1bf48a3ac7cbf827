/-
Tags with a body: descriptions, examples, snippets and style classes.

* `description` — the inline text and the lines under it, as markdown;
* `example` — language, title, description and code of each occurrence that has code;
* `snippet` — the label and code of the first occurrence;
* `cssClass` — style classes under their identifier slugs, a later one in place of an earlier one.
-/
import DocComment.Slug
import DocComment.Tag.Interpreter
import DocComment.Text.Column

namespace DocComment.Tag

open Text

/-- The lines of a description as one text, trimmed. -/
def proseOf (e : Entry) : String :=
  let ls := e.inlineText?.toList ++ e.body.map fun l => String.ofList (trim l.toList)
  String.ofList (trim (unlines (ls.map String.toList)))

def description : Interpreter := fun _ es => .ok (es.head?.map fun e => .markdown (proseOf e))

/-- The code of an example: its lines, trimmed as a whole, escapes of at signs resolved. -/
def codeOf (e : Entry) : String := String.ofList (unescape '@' (trim e.joined.toList))

def exampleOf (e : Entry) : Value :=
  let fields := (e.inline.map columns).getD []
  .record
    [("language", .ofText? fields[0]?), ("title", .ofText? fields[1]?),
     ("description", .ofText? fields[2]?), ("code", .text (codeOf e))]

def example_ : Interpreter := fun _ es =>
  .ok (some (.list ((es.filter fun e => !e.body.isEmpty).map exampleOf)))

def snippet : Interpreter := fun _ es =>
  .ok (es.head?.map fun e =>
    .record [("label", (e.inline.map .text).getD (.bool true)), ("code", .text e.joined)])

/-- A style class; its content only if there are lines under the tag. -/
def styleClass (name : String) (description : Option String) (e : Entry) : Value :=
  .record
    ([("name", .text name), ("description", (description.map .markdown).getD .null)] ++
      if e.content.isEmpty then [] else [("content", .markdown e.joined)])

def cssClass : Interpreter := fun _ es =>
  .ok (some (.record (es.foldl (fun classes e =>
    match e.inlineText? with
    | none => classes
    | some s =>
      let name := (columns s).headD ""
      Keyed.insert classes (Slug.identifier name) (styleClass name (columns s)[1]? e)) [])))

end DocComment.Tag
