/-
Type expressions, as parameters and results name their types.

A type is a name, applied to further types or not; an expression is a union of types.  `A|B` is a
union of two, `Map<K, V>` applies a name, `T[]` is an array and a pair of parentheses around a
member makes it a union of its own.

* `splitTop` cuts at a separator outside of all brackets;
* `isBalanced` tells whether the brackets of a text are properly nested;
* `TypeUnion.parse` refuses an expression whose brackets are not, and no other.

Design notes: names are whatever is left when the known forms are taken apart; they are not looked
up anywhere.  A member is shorter than its expression and what stands inside its brackets is
shorter still, so `unionOf` and `memberOf` end.
-/
import DocComment.Text.Cut
import DocComment.Value

namespace DocComment

/-- A type: a name and the types it is applied to. -/
inductive TypeExpr where
  | mk (name : String) (of : List TypeExpr)
deriving Repr, Inhabited

/-- A type expression: its source and its members. -/
structure TypeUnion where
  raw : String
  types : List TypeExpr
deriving Repr, Inhabited

namespace TypeExpr

def name : TypeExpr → String
  | mk name _ => name

def of : TypeExpr → List TypeExpr
  | mk _ of => of

/-! ### Brackets -/

def isOpening (c : Char) : Bool := c == '<' || c == '(' || c == '[' || c == '\x7b'

def isClosing (c : Char) : Bool := c == '>' || c == ')' || c == ']' || c == '\x7d'

/-- The bracket that a closing bracket closes. -/
def openingOf : Char → Char
  | '>' => '<'
  | ')' => '('
  | ']' => '['
  | _ => '\x7b'

/-- The brackets are properly nested, given those still open, the innermost first. -/
def nests : Text → Text → Bool
  | stack, [] => stack.isEmpty
  | stack, c :: t =>
    if isOpening c then nests (c :: stack) t
    else if isClosing c then
      match stack with
      | b :: stack => b == openingOf c && nests stack t
      | [] => false
    else nests stack t

/-- The brackets of a text are properly nested. -/
def isBalanced (t : Text) : Bool := nests [] t

/-- The parts between separators outside of brackets, when `depth` brackets are open. -/
def splitAt (sep : Char) (depth : Nat) : Text → List Text
  | [] => [[]]
  | c :: t =>
    if isOpening c then (splitAt sep (depth + 1) t).modifyHead (c :: ·)
    else if isClosing c then (splitAt sep (depth - 1) t).modifyHead (c :: ·)
    else if c = sep ∧ depth = 0 then [] :: splitAt sep 0 t
    else (splitAt sep depth t).modifyHead (c :: ·)

/-- The parts of a text between separators outside of all brackets. -/
def splitTop (sep : Char) (t : Text) : List Text := splitAt sep 0 t

theorem length_le_of_mem_modifyHead {c : Char} {n : Nat} {ps : List Text}
    (h : ∀ p ∈ ps, p.length ≤ n) : ∀ p ∈ ps.modifyHead (c :: ·), p.length ≤ n + 1 := by
  cases ps with
  | nil => simp
  | cons q qs =>
    simp only [List.modifyHead_cons, List.forall_mem_cons] at h ⊢
    exact ⟨Nat.succ_le_succ h.1, fun p hp => Nat.le_succ_of_le (h.2 p hp)⟩

theorem length_le_of_mem_splitAt (sep : Char) (depth : Nat) (t : Text) :
    ∀ p ∈ splitAt sep depth t, p.length ≤ t.length := by
  fun_induction splitAt sep depth t with
  | case1 => simp
  | case2 depth c t _ ih => exact length_le_of_mem_modifyHead ih
  | case3 depth c t _ _ ih => exact length_le_of_mem_modifyHead ih
  | case4 depth c t _ _ _ ih =>
    exact List.forall_mem_cons.mpr ⟨Nat.zero_le _, fun p hp => Nat.le_succ_of_le (ih p hp)⟩
  | case5 depth c t _ _ _ ih => exact length_le_of_mem_modifyHead ih

/-- A part, trimmed, is no longer than the text. -/
theorem length_trim_le_of_mem_splitTop {sep : Char} {t p : Text} (h : p ∈ splitTop sep t) :
    (Text.trim p).length ≤ t.length :=
  Nat.le_trans (Text.length_trim_le p) (length_le_of_mem_splitAt sep 0 t p h)

/-! ### Reading -/

/-- A member taken apart: its name, and its parts with the separator that goes between them. -/
inductive Form where
  | plain
  | array (inner : Text)
  | group (inner : Text)
  | applied (name inner : Text)

/-- What stands between two characters at the ends of a text. -/
def between? (first last : Char) (t : Text) : Option Text := do
  Text.before? [last] (← Text.after? [first] t)

/-- The form of a member. -/
def formOf (t : Text) : Form :=
  match Text.before? "[]".toList t with
  | some inner => .array inner
  | none =>
    match between? '(' ')' t with
    | some inner => .group inner
    | none =>
      match Text.cutAt? (· == '<') t with
      | none => .plain
      | some (name, rest) =>
        match Text.before? ">".toList rest with
        | some inner => .applied (Text.trim name) inner
        | none => .plain

/-- What stands inside the brackets of a form. -/
def Form.inner : Form → Text
  | .plain => []
  | .array t | .group t | .applied _ t => t

/-- What stands inside the brackets of a member is shorter than the member. -/
theorem length_inner_formOf (t : Text) :
    formOf t = .plain ∨ (formOf t).inner.length < t.length := by
  unfold formOf
  split
  · next inner hi =>
    rw [Text.before?_eq_some_iff] at hi
    simp [Form.inner, hi]
  · split
    · next inner hi =>
      obtain ⟨r, hr, hi⟩ := Option.bind_eq_some_iff.mp hi
      rw [Text.after?_eq_some_iff] at hr
      rw [Text.before?_eq_some_iff] at hi
      simp only [Form.inner, hr, hi, List.length_append, List.length_cons, List.length_nil]
      omega
    · split
      · exact Or.inl rfl
      · next name rest hc =>
        obtain ⟨c, _, ht⟩ := Text.cutAt?_eq_some hc
        split
        · next inner hi =>
          rw [Text.before?_eq_some_iff] at hi
          simp [Form.inner, ht, hi]
          omega
        · exact Or.inl rfl

mutual

/-- The members of an expression, blank ones left out. -/
def unionOf (t : Text) : List TypeExpr :=
  (splitTop '|' t).attach.flatMap fun ⟨part, _⟩ =>
    if Text.isBlank part then [] else [memberOf (Text.trim part)]
termination_by (t.length, 1)
decreasing_by
  rcases Nat.lt_or_eq_of_le (length_trim_le_of_mem_splitTop ‹part ∈ splitTop '|' t›) with h | h
  · exact Prod.Lex.left _ _ h
  · rw [h]
    exact Prod.Lex.right _ (by decide)

/-- The type that a member denotes. -/
def memberOf (t : Text) : TypeExpr :=
  match _h : formOf t with
  | .plain => mk (String.ofList t) []
  | .array inner => mk "Array" (unionOf inner)
  | .group inner => mk "Union" (unionOf inner)
  | .applied name inner =>
    mk (String.ofList name)
      ((splitTop ',' inner).attach.flatMap fun ⟨part, _⟩ => unionOf (Text.trim part))
termination_by (t.length, 0)
decreasing_by
  all_goals have h := length_inner_formOf t
  all_goals simp only [_h, reduceCtorEq, false_or, Form.inner] at h
  · exact Prod.Lex.left _ _ h
  · exact Prod.Lex.left _ _ h
  · have h' := length_trim_le_of_mem_splitTop ‹part ∈ splitTop ',' inner›
    exact Prod.Lex.left _ _ (Nat.lt_of_le_of_lt h' h)

end

/-! ### As values -/

mutual

/-- A type as a record; types without arguments have no `of`. -/
def toValue : TypeExpr → Value
  | mk name [] => .record [("type", .text name)]
  | mk name (t :: ts) => .record [("type", .text name), ("of", .list (toValue t :: toValues ts))]

def toValues : List TypeExpr → List Value
  | [] => []
  | t :: ts => toValue t :: toValues ts

end

end TypeExpr

namespace TypeUnion

/-- The expression without blanks and braces around it. -/
def bare (t : Text) : Text :=
  let t := Text.trim t
  Text.trim ((TypeExpr.between? '\x7b' '\x7d' t).getD t)

/-- Reads a type expression, in braces or not; its brackets have to be properly nested, or else it
is given back. -/
def parse (s : String) : Except String TypeUnion :=
  let t := bare s.toList
  if TypeExpr.isBalanced t then .ok ⟨String.ofList t, TypeExpr.unionOf t⟩
  else .error (String.ofList t)

/-- The expression in braces, unless it is. -/
def braced (s : String) : String :=
  let t := Text.trim s.toList
  if t.head? = some '\x7b' ∧ t.getLast? = some '\x7d' then String.ofList t
  else String.ofList ('\x7b' :: t ++ ['\x7d'])

def toValue (u : TypeUnion) : Value :=
  .record [("raw", .text u.raw), ("types", .list (TypeExpr.toValues u.types))]

end TypeUnion

end DocComment
