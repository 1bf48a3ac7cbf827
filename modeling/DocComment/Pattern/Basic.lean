/-
Patterns, and where they match.

A pattern is matched by following all its residuals at once: `residuals p c` are the patterns of
which one has to match what comes after `c`, so that the characters of the text are read once, from
left to right, whatever the pattern (`matchesFrom`).

* `isIn` searches: the pattern may match any stretch of the text;
* `matchesAll` asks for the whole text.

Design notes: a pattern may look at the ends of the text, so `isNullable` and `residuals` are told
whether the text starts here.
-/
import DocComment.Text.Blank

namespace DocComment

/-- A set of characters, given by ranges or by those of its complement. -/
structure CharSet where
  negated : Bool := false
  ranges : List (Char × Char)
deriving DecidableEq, Repr

namespace CharSet

def contains (s : CharSet) (c : Char) : Bool :=
  s.ranges.any (fun (low, high) => low ≤ c && c ≤ high) != s.negated

def single (c : Char) : CharSet := { ranges := [(c, c)] }

/-- All characters but one. -/
def except (c : Char) : CharSet := ⟨true, [(c, c)]⟩

def any : CharSet := ⟨true, []⟩

end CharSet

inductive Pattern where
  /-- Nothing at all. -/
  | empty
  /-- One character of a set. -/
  | one (s : CharSet)
  /-- The start of the text. -/
  | atStart
  /-- The end of the text. -/
  | atEnd
  | seq (p q : Pattern)
  | alt (p q : Pattern)
  /-- Any number of times. -/
  | star (p : Pattern)
deriving DecidableEq, Repr

namespace Pattern

def plus (p : Pattern) : Pattern := .seq p (.star p)

def opt (p : Pattern) : Pattern := .alt p .empty

/-- One after the other. -/
def seqAll (ps : List Pattern) : Pattern := ps.foldr .seq .empty

/-- Whether the pattern matches the empty stretch here. -/
def isNullable (start stop : Bool) : Pattern → Bool
  | .empty => true
  | .one _ => false
  | .atStart => start
  | .atEnd => stop
  | .seq p q => isNullable start stop p && isNullable start stop q
  | .alt p q => isNullable start stop p || isNullable start stop q
  | .star _ => true

/-- The patterns of which one has to match what follows `c`. -/
def residuals (start : Bool) (c : Char) : Pattern → List Pattern
  | .empty | .atStart | .atEnd => []
  | .one s => if s.contains c then [.empty] else []
  | .seq p q =>
    (residuals start c p).map (.seq · q) ++
      if isNullable start false p then residuals start c q else []
  | .alt p q => residuals start c p ++ residuals start c q
  | .star p => (residuals start c p).map (.seq · (.star p))

/-- The residuals of several patterns, each once. -/
def step (start : Bool) (c : Char) (ps : List Pattern) : List Pattern :=
  (ps.flatMap (residuals start c)).eraseDups

/-- Whether some stretch of the text that starts with one of `ps` here, or with `fresh` here or
later, matches. -/
def findFrom (fresh : List Pattern) (start : Bool) (ps : List Pattern) : Text → Bool
  | [] => (ps ++ fresh).any (isNullable start true)
  | c :: t =>
    (ps ++ fresh).any (isNullable start false) ||
      findFrom fresh false (step start c (ps ++ fresh)) t

/-- The pattern matches a stretch of the text. -/
def isIn (p : Pattern) (t : Text) : Bool := findFrom [p] true [] t

/-- Whether one of the patterns matches all that is left. -/
def matchesFrom (start : Bool) (ps : List Pattern) : Text → Bool
  | [] => ps.any (isNullable start true)
  | c :: t => matchesFrom false (step start c ps) t

/-- The pattern matches the whole text. -/
def matchesAll (p : Pattern) (t : Text) : Bool := matchesFrom true [p] t

end Pattern

end DocComment
