/-
Documents: all comments of a text.

A document is a source text with options; parsing gives it blocks.  `parse` extracts the comments,
keeps those that the tag filter accepts, interprets each by itself, keeps the blocks that the
options want, and sorts them.

* Nothing of this happens if the configuration is at fault; the document is then as it was.
* The blocks of a document, and all that is made of them, are there once it was parsed.

Design notes: an interpreted comment is a `Block`, its normal form with its record, so a block
cannot be asked for too early.  A comment by itself is interpreted step by step (`Comment`), and
there it can.
-/
import DocComment.Comment.Extraction
import DocComment.Comment.Normal
import DocComment.Comment.Section
import DocComment.Interpretation
import DocComment.Markdown.Html
import DocComment.Order
import DocComment.Tag.Builtin
import DocComment.TagFilter

namespace DocComment

/-- An interpreted comment. -/
structure Block where
  /-- The comment in normal form. -/
  raw : String
  record : Record
deriving Inhabited

/-- Interprets a comment; the failures of its tags. -/
def Block.ofComment (registry : Registry) (ctx : Context) (comment : String) :
    Block × List TagFailure :=
  let raw := Comment.normalize comment
  let i := (Comment.segment raw).interpret registry ctx raw
  (⟨raw, i.record⟩, i.failures)

/-- A comment that may have been interpreted. -/
structure Comment where
  /-- The comment in normal form. -/
  raw : String
  record? : Option Record := none
deriving Inhabited

namespace Comment

def ofSource (source : String) : Comment := { raw := normalize source }

/-- Interprets the comment, again if it was. -/
def interpret (registry : Registry) (ctx : Context) (c : Comment) : Comment × List TagFailure :=
  let i := (segment c.raw).interpret registry ctx c.raw
  ({ c with record? := some i.record }, i.failures)

def record (c : Comment) : Except Error Record :=
  match c.record? with
  | some r => .ok r
  | none => .error (.notParsed .comment)

end Comment

structure Options where
  settings : Settings := {}
  registry : Registry := .builtin
  renderer : Renderer := .html
  /-- The language of the patterns in the settings. -/
  patterns : PatternLanguage := .basic
  package : Option Package := none
  /-- Rules besides those of the settings. -/
  tagFilter : TagFilter := []
  /-- Which blocks to keep. -/
  keep : Block → Bool := fun _ => true
  order : Comparator := Order.heuristic
  files : FileTree := ⟨[]⟩

namespace Options

def context (o : Options) : Context :=
  Context.ofSettings o.settings o.package o.renderer o.files

/-- All rules that a comment has to pass. -/
def fullFilter (o : Options) : Except Error TagFilter :=
  (TagFilter.ofMembers o.settings.filterByTag o.patterns).map (·.merge o.tagFilter)

/-- The registry with the further tags of the settings. -/
def fullRegistry (o : Options) : Except Error Registry :=
  (o.registry.withAliases o.settings.tags).mapError .unknownTarget

end Options

structure Document where
  source : String
  options : Options
  blocks? : Option (List Block) := none

namespace Document

/-- The comments of a text that a filter accepts. -/
def candidates (filter : TagFilter) (source : String) : List String :=
  (Comment.comments source).filter filter.accepts

/-- The blocks that the options keep, sorted. -/
def arrange (o : Options) (blocks : List Block) : List Block :=
  insertionSort (fun a b => o.order a.record b.record) (blocks.filter o.keep)

/-- Gives the document its blocks; the failures of all comments that were interpreted. -/
def parse (d : Document) : Except Error (Document × List TagFailure) := do
  let filter ← d.options.fullFilter
  let registry ← d.options.fullRegistry
  let results := (candidates filter d.source).map (Block.ofComment registry d.options.context)
  return ({ d with blocks? := some (arrange d.options (results.map Prod.fst)) },
    results.flatMap Prod.snd)

/-- Opens a file; without a package of its own the document gets the one that the file belongs to,
if that can be read. -/
def ofPath (p : Path) (o : Options) : Except Error Document :=
  if !o.files.exists? p then .error (.sourceNotFound p)
  else match o.files.read? p with
    | none => .error (.unreadableSource (.file p))
    | some source =>
      let found := (Package.nearest o.files p).toOption.join
      .ok ⟨source, { o with
        package := o.package.or found
        settings := { o.settings with filePath := some p } }, none⟩

def blocks (d : Document) : Except Error (List Block) :=
  match d.blocks? with
  | some bs => .ok bs
  | none => .error (.notParsed .document)

/-- Sorts the blocks anew. -/
def sortWith (compare : Comparator) (d : Document) : Except Error Document :=
  d.blocks.map fun bs =>
    { d with blocks? := some (insertionSort (fun a b => compare a.record b.record) bs) }

def sort (d : Document) : Except Error Document := d.sortWith d.options.order

def records (d : Document) : Except Error (List Record) := d.blocks.map (·.map Block.record)

/-- The records as plain data. -/
def toJson (d : Document) : Except Error Json :=
  d.records.map fun rs => .array (rs.map fun r => (Value.record r).toJson)

/-- The comments in normal form, one after the other. -/
def toText (d : Document) : Except Error String :=
  d.blocks.map fun bs => "\n".intercalate (bs.map Block.raw)

end Document

end DocComment
