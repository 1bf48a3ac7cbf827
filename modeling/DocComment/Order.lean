/-
Orders: in which sequence the records of a document come.

A comparator answers for two records, `gt` meaning that the first belongs after the second.  It need
not be an order: `insertionSort` only ever moves a record past a neighbour that the comparator puts
after it, so it ends and loses nothing whatever the comparator says.

* `Order.heuristic`, the default, moves what is general in front; it is not transitive;
* `Order.byWeight` is an order on the same signals;
* `insertionSort_perm` — sorting loses and invents nothing.

Design notes: the sorted part is kept with its last element first, so moving an element back past
its neighbours is an insertion from the front.
-/
import DocComment.Text.Lowercase
import DocComment.Value

namespace DocComment

section Insertion

variable {α : Type}

/-- Moves `x` past the neighbours that belong after it; the last element comes first. -/
def insertBack (compare : α → α → Ordering) (x : α) : List α → List α
  | [] => [x]
  | y :: ys => if compare y x = .gt then y :: insertBack compare x ys else x :: y :: ys

/-- Inserts the elements one after the other. -/
def insertionSort (compare : α → α → Ordering) (l : List α) : List α :=
  (l.foldl (fun done x => insertBack compare x done) []).reverse

theorem insertBack_perm (compare : α → α → Ordering) (x : α) (l : List α) :
    (insertBack compare x l).Perm (x :: l) := by
  induction l with
  | nil => exact .refl _
  | cons y ys ih =>
    unfold insertBack
    split
    · exact (ih.cons y).trans (.swap x y ys)
    · exact .refl _

theorem foldl_insertBack_perm (compare : α → α → Ordering) (l done : List α) :
    (l.foldl (fun done x => insertBack compare x done) done).Perm (done ++ l) := by
  induction l generalizing done with
  | nil => simp
  | cons x l ih =>
    refine (ih _).trans (((insertBack_perm compare x done).append_right l).trans ?_)
    exact List.perm_middle.symm

theorem insertionSort_perm (compare : α → α → Ordering) (l : List α) :
    (insertionSort compare l).Perm l :=
  (List.reverse_perm _).trans (foldl_insertBack_perm compare l [])

end Insertion

abbrev Comparator := Record → Record → Ordering

namespace Order

/-- The type of a record, in small letters. -/
def typeName? (r : Record) : Option String := do
  let v ← Keyed.get? r "type"
  let name ← match v with
    | .record fields => (← Keyed.get? fields "raw").string?
    | v => v.string?
  return String.ofList (Text.lowercase name.toList)

def nameLength (r : Record) : Nat :=
  (((Keyed.get? r "name").bind Value.string?).map String.length).getD 0

def isTruthyAt (r : Record) (key : String) : Bool := (Keyed.get? r key).any Value.isTruthy

/-- The signals of a record: it has a namespace, is a class, has a constructor, is private, is a
function. -/
def signals (r : Record) : List Bool :=
  [isTruthyAt r "namespace", typeName? r == some "class", Keyed.contains r "constructor",
    Keyed.contains r "private", typeName? r == some "function"]

/-- How many signals a record has. -/
def weight (r : Record) : Nat := (signals r).count true

/-- How strongly the second record moves the first behind it: its signals, and one more if it has
the longer name. -/
def delta (a b : Record) : Nat := weight b + if nameLength a < nameLength b then 1 else 0

/-- A record belongs after each one that moves it at all. -/
def heuristic : Comparator := fun a b => compare (delta a b) 0

/-- Fewer signals come first, then shorter names. -/
def byWeight : Comparator := fun a b =>
  (compare (weight a) (weight b)).then (compare (nameLength a) (nameLength b))

end Order

end DocComment
