/-
Inline markdown: emphasis, code and escapes inside a paragraph.

The text of a paragraph is cut into pieces (`pieces`), which are text, finished output, and runs of
the markers `*` and `_`.  Each run is told from the characters around it whether it may open or
close emphasis.  `Open.place` reads the pieces from left to right and keeps the runs that wait to
be closed on a stack, each with the output since.

* A run closes the nearest waiting run of its marker, two markers at a time for strong emphasis;
  runs between the two that were never closed become text.
* Two runs of which one may both open and close do not match when their lengths add up to a
  multiple of three and the closing one is not such a multiple.

Design notes: the stack is the list of waiting runs, the innermost first, so that closing is taking
the front of a list, and a run that closes others shrinks with each, so it ends.
-/
import DocComment.Text.Cut
import DocComment.Text.Punctuation

namespace DocComment.Markdown

/-- The spelling of a character in HTML. -/
def escape (c : Char) : Text :=
  match c with
  | '&' => "&amp;".toList
  | '<' => "&lt;".toList
  | '>' => "&gt;".toList
  | '"' => "&quot;".toList
  | c => [c]

def escapeText (t : Text) : Text := t.flatMap escape

/-! ### Pieces -/

inductive Piece where
  | text (t : Text)
  | output (t : Text)
  /-- A run of markers. -/
  | run (marker : Char) (size : Nat) (opens closes : Bool)
deriving DecidableEq, Repr

/-- How a character beside a run counts; the ends of a text count as blanks. -/
inductive Neighbour where
  | blank | punctuation | other
deriving DecidableEq, Repr

def Neighbour.of : Option Char → Neighbour
  | none => .blank
  | some c => if isBlank c then .blank else if isPunctuation c then .punctuation else .other

/-- A run with what stands before and after it.  An underscore inside a word does neither open nor
close. -/
def runPiece (marker : Char) (size : Nat) (before after : Option Char) : Piece :=
  let b := Neighbour.of before
  let a := Neighbour.of after
  let opens := a == .other || (a == .punctuation && b != .other)
  let closes := b == .other || (b == .punctuation && a != .other)
  if marker == '_' then
    .run marker size (opens && (b != .other || !closes)) (closes && (a != .other || !opens))
  else .run marker size opens closes

def backtick : Char := '\x60'

/-- The content of a code span that ends with the next run of exactly `n` backticks, and the rest;
`run` counts the backticks just read. -/
def codeBody? (n run : Nat) : Text → Option (Text × Text)
  | [] => if run = n then some ([], []) else none
  | c :: t =>
    if c = backtick then (codeBody? n (run + 1) t).map fun (a, b) => (c :: a, b)
    else if run = n then some ([], c :: t)
    else (codeBody? n 0 t).map fun (a, b) => (c :: a, b)

theorem length_of_codeBody? {n run : Nat} {t a b : Text} (h : codeBody? n run t = some (a, b)) :
    b.length ≤ t.length := by
  fun_induction codeBody? n run t generalizing a <;>
    simp only [Option.some.injEq, Prod.mk.injEq, Option.map_eq_some_iff, Prod.exists,
      reduceCtorEq, List.length_cons] at h ⊢ <;>
    grind

/-- The text of a code span: line breaks are blanks, and one blank at both ends goes unless all is
blank. -/
def codeText (n : Nat) (t : Text) : Text :=
  let t := (t.take (t.length - n)).map fun c => if c = '\n' then ' ' else c
  if t.head? = some ' ' ∧ t.getLast? = some ' ' ∧ t.any (· ≠ ' ') then (t.drop 1).dropLast else t

def lineBreak : Text := "<br />\n".toList

def isMarker (c : Char) : Bool := c == '*' || c == '_'

/-- Drops the blanks at the start of a line. -/
def dropIndent (t : Text) : Text := t.dropWhile isIndent

/-- The pieces of a text, given the character before it. -/
def pieces (before : Option Char) : Text → List Piece
  | [] => []
  | c :: t =>
    if c = '\\' then
      match t with
      | [] => [.text [c]]
      | d :: t =>
        if d = '\n' then .output lineBreak :: pieces (some d) (dropIndent t)
        else if isAsciiPunctuation d then .text [d] :: pieces (some d) t
        else .text [c] :: pieces (some c) (d :: t)
    else if c = backtick then
      let n := (t.takeWhile (· = backtick)).length
      match _h : codeBody? (n + 1) 0 (t.dropWhile (· = backtick)) with
      | some (a, b) =>
        .output ("<code>".toList ++ escapeText (codeText (n + 1) a) ++ "</code>".toList) ::
          pieces (some c) b
      | none => .text (List.replicate (n + 1) c) :: pieces (some c) (t.dropWhile (· = backtick))
    else if isMarker c then
      let n := (t.takeWhile (· = c)).length
      runPiece c (n + 1) before (t.dropWhile (· = c)).head? :: pieces (some c) (t.dropWhile (· = c))
    else if isIndent c then
      let gap := c :: t.takeWhile isIndent
      match _h : t.dropWhile isIndent with
      | [] => []
      | d :: rest =>
        if d = '\n' then
          (if 2 ≤ gap.length && gap.all (· == ' ') then .output lineBreak else .text [d]) ::
            pieces (some d) (dropIndent rest)
        else .text gap :: pieces gap.getLast? (d :: rest)
    else if c = '\n' then .text [c] :: pieces (some c) (dropIndent t)
    else .text [c] :: pieces (some c) t
termination_by t => t.length
decreasing_by
  · have := (List.dropWhile_sublist isIndent (l := t)).length_le
    simp only [dropIndent, List.length_cons]
    omega
  · simp only [List.length_cons]
    omega
  · simp
  · have h₁ := length_of_codeBody? _h
    have h₂ := (List.dropWhile_sublist (fun x => decide (x = backtick)) (l := t)).length_le
    simp only [List.length_cons]
    omega
  · have h₂ := (List.dropWhile_sublist (fun x => decide (x = backtick)) (l := t)).length_le
    simp only [List.length_cons]
    omega
  · have h₂ := (List.dropWhile_sublist (fun x => decide (x = c)) (l := t)).length_le
    simp only [List.length_cons]
    omega
  · have h₁ := (List.dropWhile_sublist isIndent (l := t)).length_le
    have h₂ := (List.dropWhile_sublist isIndent (l := rest)).length_le
    rw [_h] at h₁
    simp only [dropIndent, List.length_cons] at h₁ ⊢
    omega
  · have h₁ := (List.dropWhile_sublist isIndent (l := t)).length_le
    rw [_h] at h₁
    simp only [List.length_cons] at h₁ ⊢
    omega
  · have := (List.dropWhile_sublist isIndent (l := t)).length_le
    simp only [dropIndent, List.length_cons]
    omega
  · simp

/-! ### Emphasis -/

/-- A run that waits to be closed, and the output since. -/
structure Waiting where
  marker : Char
  size : Nat
  closes : Bool
  inner : Text

/-- The output before all waiting runs, and these, the innermost first. -/
structure Open where
  done : Text := []
  stack : List Waiting := []

namespace Open

/-- Appends output. -/
def write (o : Open) (t : Text) : Open :=
  match o.stack with
  | [] => { o with done := o.done ++ t }
  | w :: ws => { o with stack := { w with inner := w.inner ++ t } :: ws }

/-- A waiting run that is never closed, as text. -/
def literal (w : Waiting) : Text := List.replicate w.size w.marker ++ w.inner

/-- The output when nothing waits any more. -/
def finish (o : Open) : Text := o.done ++ o.stack.reverse.flatMap literal

/-- Whether a run may close a waiting one. -/
def closesOf (marker : Char) (size : Nat) (opens : Bool) (w : Waiting) : Bool :=
  w.marker == marker &&
    !((w.closes || opens) && size % 3 != 0 && (w.size + size) % 3 == 0)

/-- The nearest waiting run that a run may close, with what waits further in as text, and the runs
that wait further out. -/
def match? (marker : Char) (size : Nat) (opens : Bool) :
    List Waiting → Option (Waiting × List Waiting)
  | [] => none
  | w :: ws =>
    if closesOf marker size opens w then some (w, ws)
    else (match? marker size opens ws).map fun (v, vs) =>
      ({ v with inner := v.inner ++ literal w }, vs)

/-- Emphasis, strong for two markers. -/
def wrap (strong : Bool) (t : Text) : Text :=
  if strong then "<strong>".toList ++ t ++ "</strong>".toList
  else "<em>".toList ++ t ++ "</em>".toList

/-- Closes waiting runs with a run of the given size; what is left of it. -/
def close (marker : Char) (opens : Bool) : Nat → Open → Nat × Open
  | 0, o => (0, o)
  | n + 1, o =>
    match match? marker (n + 1) opens o.stack with
    | none => (n + 1, o)
    | some (w, ws) =>
      let strong := 2 ≤ w.size && 1 ≤ n
      let used := if strong then 2 else 1
      let t := wrap strong w.inner
      let o' : Open :=
        if w.size = used then Open.write { o with stack := ws } t
        else { o with stack := { w with size := w.size - used, inner := t } :: ws }
      close marker opens (n + 1 - used) o'
termination_by n => n
decreasing_by split <;> omega

/-- Reads one more piece. -/
def place (o : Open) : Piece → Open
  | .text t => o.write (escapeText t)
  | .output t => o.write t
  | .run marker size opens closes =>
    let (left, o) := if closes then close marker opens size o else (size, o)
    if left = 0 then o
    else if opens then { o with stack := ⟨marker, left, closes, []⟩ :: o.stack }
    else o.write (List.replicate left marker)

end Open

/-- The HTML of the text of a paragraph. -/
def inlineHtml (t : Text) : Text := ((pieces none t).foldl Open.place {}).finish

end DocComment.Markdown
