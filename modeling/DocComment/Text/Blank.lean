/-
Blank characters and trimming.

A text that is taken apart is a list of characters, so that cutting it is recursion on data:

* `isBlank` is Unicode's `White_Space` property, which is larger than the six ASCII blanks;
* `trim` drops blanks at both ends, `trimStart` and `trimEnd` at one;
* `trimStart_append_of_blank` and its neighbours say what trimming ignores.

Design notes: trimming at the end is trimming the reversed text at its start, so every fact about
the end is the fact about the start read backwards.
-/

namespace DocComment

/-- A text as the list of its characters. -/
abbrev Text := List Char

/-- The characters with the Unicode property `White_Space`. -/
def isBlank (c : Char) : Bool :=
  let n := c.toNat
  (9 ≤ n && n ≤ 13) || n == 0x20 || n == 0x85 || n == 0xA0 || n == 0x1680 ||
    (0x2000 ≤ n && n ≤ 0x200A) || n == 0x2028 || n == 0x2029 || n == 0x202F || n == 0x205F ||
    n == 0x3000

/-- A blank as indentation has it: a space or a tab. -/
def isIndent (c : Char) : Bool := c == ' ' || c == '\t'

theorem isBlank_of_isIndent {c : Char} (h : isIndent c = true) : isBlank c = true := by
  rcases Bool.or_eq_true_iff.mp h with h | h <;> rw [beq_iff_eq.mp h] <;> decide

namespace Text

/-- Nothing but blanks. -/
def isBlank (t : Text) : Bool := t.all DocComment.isBlank

def trimStart (t : Text) : Text := t.dropWhile DocComment.isBlank

def trimEnd (t : Text) : Text := (trimStart t.reverse).reverse

def trim (t : Text) : Text := trimEnd (trimStart t)

theorem trimStart_append_of_blank {b : Text} (h : isBlank b = true) (t : Text) :
    trimStart (b ++ t) = trimStart t := by
  induction b with
  | nil => rfl
  | cons c b ih =>
    obtain ⟨hc, hb⟩ := Bool.and_eq_true_iff.mp h
    simpa [trimStart, List.dropWhile_cons, hc] using ih hb

theorem trimStart_cons_of_not_blank {c : Char} (h : DocComment.isBlank c = false) (t : Text) :
    trimStart (c :: t) = c :: t := by
  simp [trimStart, h]

/-- A text is blank exactly when trimming leaves nothing of it. -/
theorem trimStart_eq_nil_iff {t : Text} : trimStart t = [] ↔ isBlank t = true := by
  induction t with
  | nil => simp [trimStart, isBlank]
  | cons c t ih =>
    by_cases h : DocComment.isBlank c = true
    · simp only [trimStart, List.dropWhile_cons, h, if_true] at ih ⊢
      simp [isBlank, h, ih]
    · simp [trimStart, isBlank, h]

theorem length_trimStart_le (t : Text) : (trimStart t).length ≤ t.length :=
  (List.dropWhile_sublist _).length_le

theorem length_trimEnd_le (t : Text) : (trimEnd t).length ≤ t.length := by
  simpa [trimEnd] using length_trimStart_le t.reverse

theorem length_trim_le (t : Text) : (trim t).length ≤ t.length :=
  Nat.le_trans (length_trimEnd_le _) (length_trimStart_le t)

end Text

end DocComment
