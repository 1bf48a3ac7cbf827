/-
Paths, as text.

A path is kept as it was written; operations look at its segments, the stretches between slashes.
Empty segments and single dots are filler and name nothing, except for a dot that stands first.

* `parent?` drops the last segment that names something, together with the filler around it;
* `above` lists the parents of a path, the nearest first, and ends because each is shorter;
* `fileName?`, `stem?` and `extension?` look at the last segment; a dot at its start begins no
  extension.
-/
import DocComment.Text.Cut

namespace DocComment

structure Path where
  text : String
deriving DecidableEq, Repr, Inhabited

namespace Path

def isAbsolute (p : Path) : Bool := p.text.toList.head? == some '/'

/-- The segments, the last one first. -/
def reversedSegments (p : Path) : List Text := (p.text.toList.splitOn '/').reverse

/-- Drops the filler at the front of reversed segments. -/
def dropFiller : List Text → List Text
  | [] => []
  | [s] => if s.isEmpty then [] else [s]
  | s :: rest => if s.isEmpty || s == ['.'] then dropFiller rest else s :: rest

theorem length_dropFiller_le (l : List Text) : (dropFiller l).length ≤ l.length := by
  fun_induction dropFiller l <;> simp_all
  omega

/-- The path with the given reversed segments. -/
def ofReversed (absolute : Bool) (segments : List Text) : Path :=
  if segments.isEmpty then ⟨if absolute then "/" else ""⟩
  else ⟨String.ofList (['/'].intercalate segments.reverse)⟩

/-- The parents of a path given by its reversed segments without filler in front. -/
def aboveSegments (absolute : Bool) : List Text → List Path
  | [] => []
  | _ :: rest =>
    ofReversed absolute (dropFiller rest) :: aboveSegments absolute (dropFiller rest)
termination_by l => l.length
decreasing_by exact Nat.lt_succ_of_le (length_dropFiller_le rest)

/-- The parents of a path, the nearest first. -/
def above (p : Path) : List Path := aboveSegments p.isAbsolute (dropFiller p.reversedSegments)

def parent? (p : Path) : Option Path := p.above.head?

/-- The path and its parents. -/
def withAbove (p : Path) : List Path := p :: p.above

/-- The last segment, if it names something. -/
def fileName? (p : Path) : Option Text :=
  match dropFiller p.reversedSegments with
  | [] => none
  | s :: _ => if s == ['.'] || s == ['.', '.'] then none else some s

/-- A file name cut at its last dot, if that is not its first character. -/
def cutName (name : Text) : Text × Option Text :=
  match Text.cutAtLast? (· == '.') name with
  | some (a, b) => if a.isEmpty then (name, none) else (a, some b)
  | none => (name, none)

def stem? (p : Path) : Option String := p.fileName?.map fun n => String.ofList (cutName n).1

def extension? (p : Path) : Option String := do
  return String.ofList (← (cutName (← p.fileName?)).2)

/-- The path `q` seen from the folder `p`. -/
def join (p q : Path) : Path :=
  if q.isAbsolute || p.text.isEmpty then q
  else if p.text.toList.getLast? = some '/' then ⟨p.text ++ q.text⟩
  else ⟨p.text ++ "/" ++ q.text⟩

end Path

end DocComment
