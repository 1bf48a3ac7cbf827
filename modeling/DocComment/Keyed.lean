/-
Values under text keys, in order of first insertion.

A keyed list is the association list that shows its order.  The operations keep each key once:

* `insert` replaces in place or appends, `insertNew` only appends, `erase` closes the gap;
* `get?_insert` and `keys_insert` say what an insertion does to the two views, look-up and order;
* `ofList` reads pairs so that a repeated key keeps its first place and takes its last value.
-/

namespace DocComment

/-- Pairs of key and value; the operations below keep every key once. -/
abbrev Keyed (α : Type) := List (String × α)

namespace Keyed

variable {α : Type}

def get? : Keyed α → String → Option α
  | [], _ => none
  | (k, v) :: m, key => if k = key then some v else get? m key

def contains (m : Keyed α) (key : String) : Bool := (m.get? key).isSome

def keys (m : Keyed α) : List String := m.map Prod.fst

/-- Changes the value under `key` in place, or appends `f none`. -/
def alter (m : Keyed α) (key : String) (f : Option α → α) : Keyed α :=
  match m with
  | [] => [(key, f none)]
  | (k, v) :: m => if k = key then (k, f (some v)) :: m else (k, v) :: alter m key f

/-- A key that is there keeps its place. -/
def insert (m : Keyed α) (key : String) (value : α) : Keyed α := m.alter key fun _ => value

/-- A key that is there keeps its value too. -/
def insertNew (m : Keyed α) (key : String) (value : α) : Keyed α :=
  if m.contains key then m else m ++ [(key, value)]

def erase (m : Keyed α) (key : String) : Keyed α := m.filter fun p => p.1 ≠ key

def ofList (pairs : List (String × α)) : Keyed α :=
  pairs.foldl (fun m p => m.insert p.1 p.2) []

theorem get?_alter (m : Keyed α) (key : String) (f : Option α → α) (k : String) :
    (m.alter key f).get? k = if k = key then some (f (m.get? key)) else m.get? k := by
  induction m with
  | nil =>
    by_cases h : k = key
    · simp [alter, get?, h]
    · simp [alter, get?, h, Ne.symm h]
  | cons p m ih =>
    obtain ⟨k', v⟩ := p
    by_cases h' : k' = key
    · subst h'
      by_cases h : k = k' <;> simp [alter, get?, h, eq_comm]
    · by_cases h : k = key
      · subst h
        simp [alter, get?, h', ih]
      · simp [alter, get?, h', h, ih]

@[simp] theorem get?_insert (m : Keyed α) (key : String) (value : α) (k : String) :
    (m.insert key value).get? k = if k = key then some value else m.get? k := by
  simp [insert, get?_alter]

theorem keys_alter (m : Keyed α) (key : String) (f : Option α → α) :
    (m.alter key f).keys = if m.contains key then m.keys else m.keys ++ [key] := by
  induction m with
  | nil => simp [alter, keys, contains, get?]
  | cons p m ih =>
    obtain ⟨k, v⟩ := p
    by_cases h : k = key
    · simp [alter, keys, contains, get?, h]
    · simp only [alter, h, if_false, keys, contains, get?, List.map_cons] at ih ⊢
      rw [ih]
      by_cases hk : (get? m key).isSome = true <;> simp [hk]

@[simp] theorem keys_insert (m : Keyed α) (key : String) (value : α) :
    (m.insert key value).keys = if m.contains key then m.keys else m.keys ++ [key] :=
  keys_alter ..

theorem contains_iff_mem_keys {m : Keyed α} {key : String} :
    m.contains key = true ↔ key ∈ m.keys := by
  induction m with
  | nil => simp [contains, get?, keys]
  | cons p m ih =>
    obtain ⟨k, v⟩ := p
    by_cases h : k = key
    · simp [contains, get?, keys, h]
    · simp only [contains, get?, h, if_false, keys, List.map_cons, List.mem_cons] at ih ⊢
      rw [ih]
      simp [Ne.symm h]

end Keyed

end DocComment
