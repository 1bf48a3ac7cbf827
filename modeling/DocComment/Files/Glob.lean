/-
Globs: patterns for the places of files and folders.

A star stands for any characters but slashes, a question mark for one of them, a class in square
brackets for one character, braces for alternatives between commas, and a backslash takes its
meaning from what follows.  Two stars between slashes, or between a slash and an end, stand for any
number of folders.

* A glob with a slash at its start or inside is compared with the whole place, any other with the
  last name.
* A glob that ends with a slash is for folders alone; one that ends with two stars is for what lies
  in a folder and not for the folder.

`Glob.parse?` refuses open braces and classes, unopened braces, ranges that run backwards and a
backslash at the end.

Design notes: a glob becomes a `Pattern` over the place with slashes between the names, so matching
is matching a pattern.  What two stars stand for is settled while the glob is read, from the part
before them and the character after them.
-/
import DocComment.Pattern.Basic
import DocComment.Text.Cut

namespace DocComment

structure Glob where
  pattern : Pattern
  /-- Whether it is for folders alone. -/
  folderOnly : Bool
deriving DecidableEq, Repr

namespace Glob

def slash : Pattern := .one (.single '/')

/-- Any characters. -/
def anything : Pattern := .star (.one .any)

/-- One character of a name. -/
def nameChar : Pattern := .one (.except '/')

/-- A piece of a glob. -/
inductive Part where
  | plain (p : Pattern)
  /-- Two stars and a slash at the start. -/
  | leading
  /-- A slash and two stars at the end. -/
  | trailing
deriving DecidableEq, Repr

def Part.pattern : Part → Pattern
  | .plain p => p
  | .leading => .alt (.opt slash) (.seq anything slash)
  | .trailing => .seq slash anything

/-- Two stars between slashes. -/
def between : Pattern := .alt slash (.seq slash (.seq anything slash))

/-- The pattern of parts of which the last comes first. -/
def ofParts (parts : List Part) : Pattern := Pattern.seqAll (parts.reverse.map Part.pattern)

/-- The parts before braces, and the alternatives in them before the last comma. -/
structure Braces where
  before : List Part
  alternatives : List (List Part)

/-- One of the alternatives; empty ones do not count. -/
def Braces.pattern (alternatives : List (List Part)) : Pattern :=
  match (alternatives.filter (!·.isEmpty)).map ofParts with
  | [] => .empty
  | p :: ps => ps.foldl .alt p

/-- What has been read: parts, the last one first, and the open braces, the innermost first. -/
structure Reader where
  parts : List Part := []
  braces : List Braces := []
  /-- The character just read. -/
  previous : Option Char := none

namespace Reader

def add (r : Reader) (p : Part) (c : Char) : Reader :=
  { r with parts := p :: r.parts, previous := some c }

def addPlain (r : Reader) (p : Pattern) (c : Char) : Reader := r.add (.plain p) c

def star (r : Reader) : Reader := r.addPlain (.star nameChar) '*'

/-- The place after two stars ends the glob or an alternative in braces. -/
def endsHere (r : Reader) : Text → Bool
  | [] => true
  | c :: _ => !r.braces.isEmpty && (c == ',' || c == '\x7d')

/-- The part that two stars and the slash before them become, in place of the slash. -/
def replaceLast (r : Reader) (p : Part) (c : Char) : Reader :=
  match r.parts with
  | .leading :: ps => { r with parts := .leading :: ps, previous := some c }
  | .trailing :: ps => { r with parts := .trailing :: ps, previous := some c }
  | _ :: ps => { r with parts := p :: ps, previous := some c }
  | [] => r.add p c

/-- Reads two stars, given what follows; what is left of that. -/
def doubleStar (r : Reader) (t : Text) : Reader × Text :=
  if r.parts.isEmpty then
    match t with
    | [] => (r.add .leading '*', [])
    | '/' :: t => (r.add .leading '/', t)
    | t => (r.star.star, t)
  else if r.previous ≠ some '/' then (r.star.star, t)
  else if r.endsHere t then (r.replaceLast .trailing '*', t)
  else match t with
    | '/' :: t => (r.replaceLast (.plain between) '/', t)
    | t => (r.star.star, t)

theorem length_doubleStar_le (r : Reader) (t : Text) : (r.doubleStar t).2.length ≤ t.length := by
  unfold doubleStar
  repeat' split
  all_goals simp

def openBrace (r : Reader) : Reader :=
  { parts := [], braces := ⟨r.parts, []⟩ :: r.braces, previous := some '\x7b' }

def closeBrace? (r : Reader) : Option Reader :=
  match r.braces with
  | b :: bs =>
    some ⟨.plain (Braces.pattern (b.alternatives ++ [r.parts])) :: b.before, bs, some '\x7d'⟩
  | [] => none

/-- A comma stands for itself outside of braces. -/
def comma (r : Reader) : Reader :=
  match r.braces with
  | b :: bs => ⟨[], { b with alternatives := b.alternatives ++ [r.parts] } :: bs, some ','⟩
  | [] => r.addPlain (.one (.single ',')) ','

end Reader

/-- Reads a class up to the bracket that closes it: `ranges` so far, the last one first, whether a
hyphen was just read, and whether this is the first character. -/
def classRanges? (ranges : List (Char × Char)) (hyphen first : Bool) :
    Text → Option (List (Char × Char) × Text)
  | [] => none
  | c :: t =>
    if c = ']' ∧ !first then some (if hyphen then ('-', '-') :: ranges else ranges, t)
    else if hyphen then
      match ranges with
      | (low, _) :: rs => if c < low then none else classRanges? ((low, c) :: rs) false false t
      | [] => none
    else if c = '-' ∧ !first then classRanges? ranges true false t
    else classRanges? ((c, c) :: ranges) false false t

theorem length_of_classRanges? {ranges rs : List (Char × Char)} {hyphen first : Bool}
    {t rest : Text} (h : classRanges? ranges hyphen first t = some (rs, rest)) :
    rest.length < t.length := by
  fun_induction classRanges? ranges hyphen first t <;> grind

/-- The class after the bracket that opens it. -/
def class? (t : Text) : Option (CharSet × Text) :=
  match t with
  | '!' :: t | '^' :: t => (classRanges? [] false true t).map fun (rs, t) => (⟨true, rs⟩, t)
  | t => (classRanges? [] false true t).map fun (rs, t) => (⟨false, rs⟩, t)

theorem length_of_class? {t rest : Text} {s : CharSet} (h : class? t = some (s, rest)) :
    rest.length < t.length := by
  unfold class? at h
  split at h
  all_goals obtain ⟨⟨rs, t⟩, h', heq⟩ := Option.map_eq_some_iff.mp h
  all_goals cases heq
  · exact Nat.lt_succ_of_lt (length_of_classRanges? h')
  · exact Nat.lt_succ_of_lt (length_of_classRanges? h')
  · exact length_of_classRanges? h'

/-- Reads a glob from left to right. -/
def readFrom? (r : Reader) : Text → Option Reader
  | [] => some r
  | '\\' :: t =>
    match t with
    | [] => none
    | c :: t => readFrom? (r.addPlain (.one (.single c)) c) t
  | '*' :: t =>
    match t with
    | '*' :: t => readFrom? (r.doubleStar t).1 (r.doubleStar t).2
    | t => readFrom? r.star t
  | '[' :: t =>
    match _h : class? t with
    | some (s, rest) => readFrom? (r.addPlain (.one s) ']') rest
    | none => none
  | c :: t =>
    if c = '?' then readFrom? (r.addPlain nameChar c) t
    else if c = '\x7b' then readFrom? r.openBrace t
    else if c = '\x7d' then
      match r.closeBrace? with
      | some r => readFrom? r t
      | none => none
    else if c = ',' then readFrom? r.comma t
    else readFrom? (r.addPlain (.one (.single c)) c) t
termination_by t => t.length
decreasing_by
  all_goals simp only [List.length_cons]
  case _ => omega
  case _ =>
    have := Reader.length_doubleStar_le r t
    omega
  case _ => omega
  case _ =>
    have := length_of_class? _h
    omega
  all_goals omega

/-- The pattern of a glob as written. -/
def pattern? (t : Text) : Option Pattern := do
  let r ← readFrom? {} t
  if !r.braces.isEmpty then none
  else if r.parts = [.leading] then some anything
  else some (ofParts r.parts)

/-- Blanks at the end do not count, unless a backslash precedes the last of them. -/
def dropBlankEnd (t : Text) : Text :=
  if (Text.before? "\\ ".toList t).isSome then t else Text.trimEnd t

/-- Splits off the slash at the end that asks for a folder. -/
def folderMark (t : Text) : Text × Bool :=
  match Text.before? ['/'] t with
  | none => (t, false)
  | some t => ((Text.before? ['\\'] t).getD t, true)

/-- The glob for whole places: one without slashes may match below any folder, and two stars at the
end leave out the folder. -/
def placed (anchored : Bool) (t : Text) : Text :=
  let t :=
    if anchored || t.contains '/' || t = "**".toList then t else "**/".toList ++ t
  if (Text.before? "/**".toList t).isSome then t ++ "/*".toList else t

/-- The glob that a text denotes. -/
def parse? (s : String) : Option Glob := do
  let t := dropBlankEnd s.toList
  let anchored := t.head? == some '/'
  let (t, folderOnly) := folderMark (if anchored then t.drop 1 else t)
  return ⟨← pattern? (placed anchored t), folderOnly⟩

/-- The glob matches a place, given by the names on the way to it. -/
def isAt (g : Glob) (names : List String) (isFolder : Bool) : Bool :=
  (isFolder || !g.folderOnly) &&
    g.pattern.matchesAll (['/'].intercalate (names.map String.toList))

end Glob

end DocComment
