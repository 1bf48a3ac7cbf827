/-
Cutting a text at characters and at fixed words.

* `after?` and `before?` take a fixed word off the start or the end;
* `cutAt?` cuts at the first character of a kind and drops that character;
* `lines` and `unlines` go between a text and its lines;
* `unescape c` drops a backslash that stands before `c`.

Every cut is total and names what is left, so that a reader of a format can go on with the rest.
-/
import DocComment.Text.Blank

namespace DocComment.Text

/-- What follows the word `w` at the start of `t`. -/
def after? : Text → Text → Option Text
  | [], t => some t
  | _ :: _, [] => none
  | c :: w, d :: t => if c = d then after? w t else none

/-- What precedes the word `w` at the end of `t`. -/
def before? (w t : Text) : Option Text := (after? w.reverse t.reverse).map List.reverse

/-- The parts before and after the first character with `p`. -/
def cutAt? (p : Char → Bool) : Text → Option (Text × Text)
  | [] => none
  | c :: t => if p c then some ([], t) else (cutAt? p t).map fun (a, b) => (c :: a, b)

/-- The parts before and after the last character with `p`. -/
def cutAtLast? (p : Char → Bool) (t : Text) : Option (Text × Text) :=
  (cutAt? p t.reverse).map fun (a, b) => (b.reverse, a.reverse)

/-- The parts before and after the first occurrence of the word `w`. -/
def cutAtWord? (w : Text) : Text → Option (Text × Text)
  | [] => if w.isEmpty then some ([], []) else none
  | c :: t =>
    match after? w (c :: t) with
    | some rest => some ([], rest)
    | none => (cutAtWord? w t).map fun (a, b) => (c :: a, b)

/-- Drops `c` at both ends, as often as it stands there. -/
def strip (p : Char → Bool) (t : Text) : Text := ((t.dropWhile p).reverse.dropWhile p).reverse

/-- A backslash before `c` goes, the `c` stays. -/
def unescape (c : Char) : Text → Text
  | '\\' :: d :: t => if d = c then c :: unescape c t else '\\' :: unescape c (d :: t)
  | d :: t => d :: unescape c t
  | [] => []

def lines (t : Text) : List Text := t.splitOn '\n'

def unlines (ls : List Text) : Text := ['\n'].intercalate ls

@[simp] theorem after?_eq_some_iff {w t r : Text} : after? w t = some r ↔ t = w ++ r := by
  fun_induction after? w t with
  | case1 t => simp
  | case2 => simp
  | case3 w d t ih => simpa using ih
  | case4 c w d t h => simp [Ne.symm h]

theorem after?_eq_none_iff {w t : Text} : after? w t = none ↔ ¬w <+: t := by
  rw [Option.eq_none_iff_forall_ne_some]
  constructor
  · rintro h ⟨r, hr⟩
    exact h r (after?_eq_some_iff.mpr hr.symm)
  · intro h r hr
    exact h ⟨r, (after?_eq_some_iff.mp hr).symm⟩

@[simp] theorem before?_eq_some_iff {w t r : Text} : before? w t = some r ↔ t = r ++ w := by
  rw [before?, Option.map_eq_some_iff]
  constructor
  · rintro ⟨u, h, rfl⟩
    rw [after?_eq_some_iff] at h
    rw [← List.reverse_inj, h]
    simp
  · rintro rfl
    exact ⟨r.reverse, by simp, by simp⟩

theorem cutAt?_eq_some {p : Char → Bool} {t a b : Text} (h : cutAt? p t = some (a, b)) :
    ∃ c, p c = true ∧ t = a ++ c :: b := by
  induction t generalizing a with
  | nil => simp [cutAt?] at h
  | cons c t ih =>
    unfold cutAt? at h
    split at h
    · next hc => cases h; exact ⟨c, hc, rfl⟩
    · obtain ⟨⟨a', b'⟩, h', heq⟩ := Option.map_eq_some_iff.mp h
      cases heq
      obtain ⟨d, hd, rfl⟩ := ih h'
      exact ⟨d, hd, rfl⟩

end DocComment.Text
