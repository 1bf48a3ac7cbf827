/-
Entries: what a comment says, tag by tag.

An entry is one occurrence of a tag: its name, the text beside it, the lines under it.  The entries
of a comment are grouped by tag, tags in the order in which they first occur and occurrences in
their order.

* `Entry.body` drops one empty line at the end, the trace of a gap that closed the tag;
* `Entries.ofList` groups a list of entries by pushing them one after the other;
* `get?_push` and `tags_push` describe a push through the two views.
-/
import DocComment.Keyed
import DocComment.Text.Cut

namespace DocComment

/-- Lines without one empty line at the end. -/
def dropTrailingBreak (ls : List String) : List String :=
  if ls.getLast? = some "" then ls.dropLast else ls

/-- The lines as one text, without a trailing paragraph break. -/
def joinContent (ls : List String) : String :=
  String.ofList (Text.unlines ((dropTrailingBreak ls).map String.toList))

/-- One occurrence of a tag. -/
structure Entry where
  tag : String
  /-- The text on the tag's line; `none` for a bare tag. -/
  inline : Option String := none
  /-- The lines under the tag; an empty line is a paragraph break. -/
  content : List String := []
deriving DecidableEq, Repr, Inhabited

namespace Entry

/-- The lines under the tag without a trailing paragraph break. -/
def body (e : Entry) : List String := dropTrailingBreak e.content

/-- The lines under the tag as one text. -/
def joined (e : Entry) : String := joinContent e.content

/-- The inline text, trimmed; `none` for a bare tag and for a blank text. -/
def inlineText? (e : Entry) : Option String := do
  let t := Text.trim (← e.inline).toList
  if t.isEmpty then none else some (String.ofList t)

def addLine (e : Entry) (line : String) : Entry := { e with content := e.content ++ [line] }

end Entry

/-- The entries of a comment, grouped by tag. -/
abbrev Entries := Keyed (List Entry)

namespace Entries

/-- Files an entry under its tag. -/
def push (es : Entries) (e : Entry) : Entries :=
  Keyed.alter es e.tag fun old => old.getD [] ++ [e]

def ofList (l : List Entry) : Entries := l.foldl push []

/-- The tags in the order in which they first occur. -/
def tags (es : Entries) : List String := Keyed.keys es

/-- The first occurrence of a tag. -/
def first? (es : Entries) (tag : String) : Option Entry := do (← Keyed.get? es tag).head?

theorem get?_push (es : Entries) (e : Entry) (tag : String) :
    Keyed.get? (es.push e) tag =
      if tag = e.tag then some ((Keyed.get? es e.tag).getD [] ++ [e]) else Keyed.get? es tag :=
  Keyed.get?_alter ..

theorem tags_push (es : Entries) (e : Entry) :
    (es.push e).tags = if Keyed.contains es e.tag then es.tags else es.tags ++ [e.tag] :=
  Keyed.keys_alter ..

theorem ofList_append (l l' : List Entry) : ofList (l ++ l') = l'.foldl push (ofList l) :=
  List.foldl_append

end Entries

end DocComment
