/-
Interpreting the entries of a comment.

The tags are interpreted in the order in which they first occur, and each adds to one record
(`addTag`).  Keys that are there are never written again, so the first writer wins:

* a tag whose key is there is passed over, as are tags of at most one character and tags that start
  with an underscore;
* a tag without an interpreter means its inline text, and `src` always does;
* an interpreter may hand out several keys at once, in a record under `tags`;
* a tag that cannot be interpreted is left out and reported, a value that cannot be rendered is kept
  as it is and reported.

In the end the record gets the comment itself under `raw` and, if no tag gave one, an `id`.

Design notes: the state of a run is the record and the failures so far (`Interpretation`), and a run
is a fold of `addTag` over the tags, so that a run over a list of tags is a run over its first part
continued over the rest.
-/
import DocComment.Digest.Sha256
import DocComment.Rendering
import DocComment.Tag.Interface
import DocComment.Tag.Plain

namespace DocComment

/-- What a comment means, and what could not be made out. -/
structure Interpretation where
  record : Record := []
  failures : List TagFailure := []
deriving Inhabited

namespace Interpretation

/-- Tags that are never interpreted. -/
def isPrivate (tag : String) : Bool :=
  match tag.toList with
  | [] | [_] => true
  | c :: _ => c == '_'

/-- The tag that means its inline text whatever the registry says. -/
def sourceTag : String := "src"

def interpreterOf (registry : Registry) (tag : String) : Interpreter :=
  if tag = sourceTag then Tag.simple else (Keyed.get? registry tag).getD Tag.simple

/-- The keys that a tag hands out with its value. -/
def keysOf (tag : String) (v : Value) : Record :=
  match v.get? Tag.bundleKey with
  | none => [(tag, v)]
  | some (.record bundle) => bundle
  | some other =>
    [(tag, .record (Keyed.erase (v.record?.getD []) Tag.bundleKey ++ [(Tag.bundleKey, other)]))]

/-- Adds a key, unless it is there. -/
def addKey (ctx : Context) (raw : String) (i : Interpretation) (p : String × Value) :
    Interpretation :=
  let (key, value) := p
  if Keyed.contains i.record key then i
  else if ctx.renderMarkdown then
    match value.renderAt ctx [key] with
    | .ok rendered => { i with record := i.record ++ [(key, rendered)] }
    | .error cause =>
      ⟨i.record ++ [(key, value)], i.failures ++ [⟨key, raw, .rendering cause⟩]⟩
  else { i with record := i.record ++ [(key, value)] }

/-- Interprets a tag, unless it is private or its key is there. -/
def addTag (registry : Registry) (ctx : Context) (raw : String) (i : Interpretation)
    (p : String × List Entry) : Interpretation :=
  let (tag, entries) := p
  if Keyed.contains i.record tag || isPrivate tag then i
  else match interpreterOf registry tag ctx entries with
    | .ok none => i
    | .ok (some v) => (keysOf tag v).foldl (addKey ctx raw) i
    | .error fault => { i with failures := i.failures ++ [⟨tag, raw, fault⟩] }

/-- A run over all tags. -/
def ofEntries (registry : Registry) (ctx : Context) (raw : String) (es : Entries) :
    Interpretation :=
  es.foldl (addTag registry ctx raw) {}

end Interpretation

namespace Record

/-- The text under a key, if it is not empty. -/
def text? (r : Record) (key : String) : Option String := do
  let s ← (← Keyed.get? r key).string?
  if s.isEmpty then none else some s

/-- The dotted slug of namespace and name; without both, the digest of the comment. -/
def identifier (r : Record) (raw : String) : String :=
  match text? r "namespace", text? r "name" with
  | some ns, some name => Slug.dotted (ns ++ "." ++ name)
  | _, _ => "s" ++ Sha256.hexDigest raw

/-- The record with the comment it comes from and an identifier. -/
def complete (r : Record) (raw : String) : Record :=
  let r := Keyed.insert r "raw" (.text raw)
  if Keyed.contains r "id" then r else r ++ [("id", .text (identifier r raw))]

end Record

/-- Interprets the entries of a comment given in normal form. -/
def Entries.interpret (registry : Registry) (ctx : Context) (raw : String) (es : Entries) :
    Interpretation :=
  let i := Interpretation.ofEntries registry ctx raw es
  { i with record := Record.complete i.record raw }

namespace Interpretation

theorem foldl_addTag_append (registry : Registry) (ctx : Context) (raw : String)
    (es es' : Entries) (i : Interpretation) :
    (es ++ es').foldl (addTag registry ctx raw) i =
      es'.foldl (addTag registry ctx raw) (es.foldl (addTag registry ctx raw) i) :=
  List.foldl_append

end Interpretation

end DocComment
