/-
Markdown as HTML.

A document is a sequence of blocks: headings, which are lines of their own that start with up to six
number signs, and paragraphs, which are the stretches of other lines that blank lines or headings
end.  `html` writes the blocks on lines of their own and ends with a line break if the document
does.

`Renderer.html` renders a whole document, or a single line without the paragraph around it.

This is a part of markdown.  Links and images, lists, quotes, indented and fenced code, thematic
breaks, headings with a line below them, HTML, references to characters and all that an option turns
on stand for themselves.  Those who render take the renderer with them, so a fuller one can be put
in its place.
-/
import DocComment.Markdown.Inline
import DocComment.Tag.Interpreter

namespace DocComment.Markdown

inductive Block where
  | heading (level : Nat) (text : Text)
  | paragraph (lines : List Text)
deriving DecidableEq, Repr

/-- A line with nothing but spaces and tabs. -/
def isBlankLine (line : Text) : Bool := line.all isIndent

/-- Drops the number signs that close a heading; a blank has to precede them. -/
def dropClosing (t : Text) : Text :=
  let back := (t.reverse.dropWhile isIndent).dropWhile (· = '#')
  match back with
  | [] => []
  | c :: _ => if isIndent c then (back.dropWhile isIndent).reverse
    else (t.reverse.dropWhile isIndent).reverse

/-- The heading that a line is. -/
def heading? (line : Text) : Option Block :=
  let indent := (line.takeWhile (· = ' ')).length
  let t := line.dropWhile (· = ' ')
  let level := (t.takeWhile (· = '#')).length
  let rest := t.dropWhile (· = '#')
  if 3 < indent || level = 0 || 6 < level || !(rest.head?.all isIndent) then none
  else some (.heading level (dropClosing (dropIndent rest)))

/-- Adds a line to the paragraph that the blocks start with, or starts one. -/
def addLine (line : Text) (open_ : Bool) : List Block → List Block
  | .paragraph ls :: bs => if open_ then .paragraph (line :: ls) :: bs
    else .paragraph [line] :: .paragraph ls :: bs
  | bs => .paragraph [line] :: bs

/-- The blocks that lines make up, and whether the first block goes on into the line before. -/
def blocksOf : List Text → List Block × Bool
  | [] => ([], false)
  | line :: ls =>
    let (blocks, open_) := blocksOf ls
    if isBlankLine line then (blocks, false)
    else match heading? line with
      | some h => (h :: blocks, false)
      | none => (addLine line open_ blocks, true)

def headingTag (level : Nat) : Text := 'h' :: (toString level).toList

def element (tag content : Text) : Text :=
  '<' :: tag ++ '>' :: content ++ "</".toList ++ tag ++ ['>']

def Block.html : Block → Text
  | .heading level t => element (headingTag level) (inlineHtml t)
  | .paragraph ls => element ['p'] (inlineHtml (dropIndent (Text.unlines ls)))

/-- A line break ends the last line that is not blank. -/
def endsWithBreak (ls : List Text) : Bool := ls.getLast?.any isBlankLine

def html (t : Text) : Text :=
  let ls := Text.lines t
  let blocks := (blocksOf ls).1
  if blocks.isEmpty then []
  else Text.unlines (blocks.map Block.html) ++ if endsWithBreak ls then ['\n'] else []

/-- The content of the one paragraph that the output is, or the whole output. -/
def withoutParagraph (t : Text) : Text :=
  let t := Text.trim t
  ((Text.after? "<p>".toList t).bind (Text.before? "</p>".toList)).getD t

end DocComment.Markdown

namespace DocComment

/-- Renders to HTML; this never fails. -/
def Renderer.html : Renderer where
  block := fun _ s => .ok (String.ofList (Markdown.html s.toList))
  inline := fun _ s => .ok (String.ofList (Markdown.withoutParagraph (Markdown.html s.toList)))

end DocComment
