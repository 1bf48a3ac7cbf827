/-
Languages of patterns, and the basic one.

What a pattern is and what it matches is up to a language of patterns (`PatternLanguage`); those who
take patterns take the language with them.

In the basic language, a pattern is written with `.` for any character but a line break, `^` and `$`
for the ends of the text, a class in square brackets, `|` between alternatives, parentheses around a
group, and `*`, `+` and `?` after what they repeat.  A backslash takes its meaning from a punctuation
mark.  `Pattern.parse?` refuses a pattern with an open or an unopened group, an open class, a range
that runs backwards, a repetition of nothing, or a backslash before nothing.

The basic language is a part of larger ones, of which it refuses the rest: a backslash before a
letter or a digit (`\d`, `\w`, `\s`, `\b`), counted repetition, groups that start with a question mark
and with them flags and names, and in classes names, nested classes and the operations `&&`, `--` and
`~~`.

Design notes: reading goes from characters to marks, in which backslashes are resolved, to tokens,
in which classes are, and to the pattern.  The last step drives a machine with a stack of open
groups and recurses on the list of tokens.
-/
import DocComment.Pattern.Basic
import DocComment.Text.Punctuation

namespace DocComment

namespace Pattern

/-- A character that may have a meaning of its own, or stands for itself. -/
inductive Mark where
  | special (c : Char)
  | plain (c : Char)
deriving DecidableEq, Repr

namespace Mark

def char : Mark → Char
  | special c | plain c => c

/-- The character after a backslash. -/
def escaped? (c : Char) : Option Char :=
  match c with
  | 'n' => some '\n'
  | 't' => some '\t'
  | 'r' => some '\r'
  | c => if isAsciiPunctuation c && c != '<' && c != '>' then some c else none

/-- Resolves backslashes. -/
def ofText? : Text → Option (List Mark)
  | [] => some []
  | ['\\'] => none
  | '\\' :: c :: t => do return plain (← escaped? c) :: (← ofText? t)
  | c :: t => do return special c :: (← ofText? t)

end Mark

/-! ### Classes -/

/-- What remains to be read of a class. -/
inductive ClassState where
  /-- Just after the bracket that opens it; `]` stands for itself. -/
  | first
  /-- Just after a hyphen at its start. -/
  | hyphens
  | item
  /-- After a character that may begin a range. -/
  | start (low : Char)
  /-- After a character and a hyphen. -/
  | range (low : Char)

def oneChar (c : Char) : Char × Char := (c, c)

/-- The mark and the one behind it stand for an operation on classes. -/
def startsOperation (m : Mark) (ms : List Mark) : Bool :=
  (m = .special '&' || m = .special '-' || m = .special '~') && ms.head? = some m

/-- The ranges up to the bracket that closes the class, and what follows it. -/
def classRanges? : ClassState → List Mark → Option (List (Char × Char) × List Mark)
  | _, [] => none
  | .first, m :: ms =>
    if m = .special '-' then (classRanges? .hyphens ms).map fun (rs, t) => (oneChar '-' :: rs, t)
    else if m = .special ']' then (classRanges? .item ms).map fun (rs, t) => (oneChar ']' :: rs, t)
    else if m = .special '[' || startsOperation m ms then none
    else classRanges? (.start m.char) ms
  | .hyphens, m :: ms =>
    if m = .special '-' then (classRanges? .hyphens ms).map fun (rs, t) => (oneChar '-' :: rs, t)
    else if m = .special ']' then some ([], ms)
    else if m = .special '[' || startsOperation m ms then none
    else classRanges? (.start m.char) ms
  | .item, m :: ms =>
    if m = .special ']' then some ([], ms)
    else if m = .special '[' || startsOperation m ms then none
    else classRanges? (.start m.char) ms
  | .start low, m :: ms =>
    if m = .special '-' then classRanges? (.range low) ms
    else if m = .special ']' then some ([oneChar low], ms)
    else if m = .special '[' || startsOperation m ms then none
    else (classRanges? (.start m.char) ms).map fun (rs, t) => (oneChar low :: rs, t)
  | .range low, m :: ms =>
    if m = .special ']' then some ([oneChar low, oneChar '-'], ms)
    else if m = .special '-' || m = .special '[' then none
    else if low ≤ m.char then
      (classRanges? .item ms).map fun (rs, t) => ((low, m.char) :: rs, t)
    else none

theorem length_of_classRanges? {s : ClassState} {ms rest : List Mark} {rs : List (Char × Char)}
    (h : classRanges? s ms = some (rs, rest)) : rest.length < ms.length := by
  fun_induction classRanges? s ms generalizing rs <;>
    grind [Option.map_eq_some_iff]

/-- The class after the bracket that opens it. -/
def class? : List Mark → Option (CharSet × List Mark)
  | .special '^' :: ms => (classRanges? .first ms).map fun (rs, t) => (⟨true, rs⟩, t)
  | ms => (classRanges? .first ms).map fun (rs, t) => (⟨false, rs⟩, t)

theorem length_of_class? {ms rest : List Mark} {s : CharSet} (h : class? ms = some (s, rest)) :
    rest.length < ms.length := by
  unfold class? at h
  split at h
  · obtain ⟨⟨rs, t⟩, h', heq⟩ := Option.map_eq_some_iff.mp h
    cases heq
    exact Nat.lt_succ_of_lt (length_of_classRanges? h')
  · obtain ⟨⟨rs, t⟩, h', heq⟩ := Option.map_eq_some_iff.mp h
    cases heq
    exact length_of_classRanges? h'

/-! ### Tokens -/

inductive Token where
  | atom (p : Pattern)
  | star
  | plus
  | opt
  | bar
  | openGroup
  | closeGroup
deriving DecidableEq, Repr

/-- The token of a mark outside of classes; none for what has no meaning there. -/
def tokenOf? : Mark → Option Token
  | .plain c => some (.atom (.one (.single c)))
  | .special '.' => some (.atom (.one (.except '\n')))
  | .special '^' => some (.atom .atStart)
  | .special '$' => some (.atom .atEnd)
  | .special '*' => some .star
  | .special '+' => some .plus
  | .special '?' => some .opt
  | .special '|' => some .bar
  | .special '(' => some .openGroup
  | .special ')' => some .closeGroup
  | .special '\x7b' => none
  | .special c => some (.atom (.one (.single c)))

/-- A repetition may be followed by a mark that asks for few rounds, which is all the same here. -/
def dropLazy (m : Mark) : List Mark → List Mark
  | .special '?' :: ms => if m ∈ [.special '*', .special '+', .special '?'] then ms
    else .special '?' :: ms
  | ms => ms

theorem length_dropLazy_le (m : Mark) (ms : List Mark) : (dropLazy m ms).length ≤ ms.length := by
  unfold dropLazy
  split
  · split <;> simp
  · simp

def tokens? : List Mark → Option (List Token)
  | [] => some []
  | m :: ms =>
    if m = .special '[' then
      match _h : class? ms with
      | some (s, rest) => (tokens? rest).map (.atom (.one s) :: ·)
      | none => none
    else do return (← tokenOf? m) :: (← tokens? (dropLazy m ms))
termination_by ms => ms.length
decreasing_by
  · have := length_of_class? _h
    simp only [List.length_cons]
    omega
  · exact Nat.lt_succ_of_le (length_dropLazy_le m ms)

/-! ### Groups -/

/-- A group that is being read: the alternatives before the last bar, and the parts since, the last
one first. -/
structure Group where
  before : Option Pattern := none
  parts : List Pattern := []

namespace Group

/-- All of the group. -/
def pattern (g : Group) : Pattern :=
  let last := seqAll g.parts.reverse
  match g.before with
  | some p => .alt p last
  | none => last

def add (g : Group) (p : Pattern) : Group := { g with parts := p :: g.parts }

/-- Changes the last part; there has to be one. -/
def modifyLast? (g : Group) (f : Pattern → Pattern) : Option Group :=
  match g.parts with
  | p :: ps => some { g with parts := f p :: ps }
  | [] => none

end Group

/-- The group being read, and the open groups around it, the innermost first. -/
structure Reader where
  inner : Group := {}
  outer : List Group := []

namespace Reader

def step? (r : Reader) : Token → Option Reader
  | .atom p => some { r with inner := r.inner.add p }
  | .star => do return { r with inner := ← r.inner.modifyLast? .star }
  | .plus => do return { r with inner := ← r.inner.modifyLast? Pattern.plus }
  | .opt => do return { r with inner := ← r.inner.modifyLast? Pattern.opt }
  | .bar => some { r with inner := { before := some r.inner.pattern } }
  | .openGroup => some { inner := {}, outer := r.inner :: r.outer }
  | .closeGroup =>
    match r.outer with
    | g :: gs => some ⟨g.add r.inner.pattern, gs⟩
    | [] => none

/-- The pattern, if no group is open. -/
def result? (r : Reader) : Option Pattern :=
  if r.outer.isEmpty then some r.inner.pattern else none

end Reader

/-- The pattern that a text denotes. -/
def parse? (s : String) : Option Pattern := do
  let tokens ← tokens? (← Mark.ofText? s.toList)
  let reader ← tokens.foldlM Reader.step? {}
  reader.result?

end Pattern

/-! ### Languages -/

/-- Which texts are patterns, and what they match. -/
structure PatternLanguage where
  /-- The test that a pattern stands for: whether it matches some stretch of a text. -/
  compile? : String → Option (String → Bool)

/-- The patterns that `Pattern.parse?` reads. -/
def PatternLanguage.basic : PatternLanguage where
  compile? s := (Pattern.parse? s).map fun p t => p.isIn t.toList

end DocComment
