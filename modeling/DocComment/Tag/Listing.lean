/-
Tags that list things: each occurrence is a line of two columns.

* `see`, `platform` — a name or address and a description, empty if missing;
* `support` — the description is markdown;
* `event` — a missing description is null;
* `todo` — a task and its priority, which may also be the last word of the task;
* `author`, `contributor` — people.
-/
import DocComment.Person
import DocComment.Tag.Interpreter
import DocComment.Text.Column

namespace DocComment.Tag

/-- One record for each occurrence with a text: the first column under `key`, the second one as
`describe` has it. -/
def listing (key : String) (describe : Option String → Value) : Interpreter := fun _ es =>
  .ok (some (.list ((es.filterMap Entry.inlineText?).map fun s =>
    let fields := columns s
    .record [(key, .text (fields.headD "")), ("description", describe fields[1]?)])))

def see : Interpreter := listing "url" fun d => .text (d.getD "")

def support : Interpreter := listing "name" fun d => .markdown (d.getD "")

def platform : Interpreter := listing "name" fun d => .text (d.getD "")

def event : Interpreter := listing "name" Value.ofText?

def priorities : List String := ["low", "normal", "high"]

/-- A task whose last word is a priority, in capitals or not, and that priority. -/
def trailingPriority? (task : Text) : Option (String × String) := do
  let (words, last) ← Text.cutAtLast? isBlank task
  let priority := String.ofList (last.map Char.toLower)
  if priority ∈ priorities ∧ Text.trim words ≠ [] then
    some (String.ofList (Text.trim words), priority)
  else none

/-- A task and its priority. -/
def taskOf (s : String) : String × String :=
  let fields := columns s
  let task := fields.headD ""
  match fields[1]? with
  | some priority => (task, priority)
  | none => (trailingPriority? task.toList).getD (task, "normal")

def todo : Interpreter := fun _ es =>
  .ok (some (.list ((es.filterMap Entry.inlineText?).map fun s =>
    .record [("priority", .text (taskOf s).2), ("description", .text (taskOf s).1)])))

/-- The person that an entry names. -/
def personOf? (e : Entry) : Option Person := e.inline.bind Person.parse?

def author : Interpreter := fun _ es => .ok ((es.head?.bind personOf?).map Person.toValue)

def contributor : Interpreter := fun _ es =>
  .ok (some (.list ((es.filterMap personOf?).map Person.toValue)))

end DocComment.Tag
