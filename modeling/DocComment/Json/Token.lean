/-
The tokens of a JSON document.

`tokens?` cuts a text into punctuation, words, numerals and strings, and fails at the first
character that starts none of them.

* A string is read up to its quote, its escapes resolved; two escapes may form one character, and
  half of such a pair is refused, as is a control character.
* A numeral is read as far as its grammar goes; what follows it is the next token's business.

Design notes: `stringBody?` and `numeral?` give back what is left of the text together with the
token, and it is shorter than what they got, so that reading tokens ends.
-/
import DocComment.Number.Basic
import DocComment.Text.Cut

namespace DocComment.Json

inductive Token where
  | openBrace | closeBrace | openBracket | closeBracket | colon | comma
  | null
  | bool (b : Bool)
  | number (n : Number)
  | string (s : String)
deriving DecidableEq, Repr

/-! ### Strings -/

def hexDigit? (c : Char) : Option Nat :=
  if c.isDigit then some (c.toNat - '0'.toNat)
  else if 'a' ≤ c ∧ c ≤ 'f' then some (c.toNat - 'a'.toNat + 10)
  else if 'A' ≤ c ∧ c ≤ 'F' then some (c.toNat - 'A'.toNat + 10)
  else none

/-- The value of four hexadecimal digits. -/
def unit? (a b c d : Char) : Option Nat := do
  return ((← hexDigit? a) * 16 + (← hexDigit? b)) * 256 + (← hexDigit? c) * 16 + (← hexDigit? d)

def isHighHalf (u : Nat) : Bool := 0xD800 ≤ u && u < 0xDC00

def isLowHalf (u : Nat) : Bool := 0xDC00 ≤ u && u < 0xE000

/-- The character that one letter after a backslash stands for. -/
def escape? : Char → Option Char
  | '"' => some '"'
  | '\\' => some '\\'
  | '/' => some '/'
  | 'b' => some '\x08'
  | 'f' => some '\x0c'
  | 'n' => some '\n'
  | 'r' => some '\r'
  | 't' => some '\t'
  | _ => none

/-- What a string holds after its first quote, and what follows its last. -/
def stringBody? : Text → Option (Text × Text)
  | '"' :: t => some ([], t)
  | '\\' :: 'u' :: a :: b :: c :: d :: t =>
    match unit? a b c d with
    | none => none
    | some u =>
      if isHighHalf u then
        match t with
        | '\\' :: 'u' :: a' :: b' :: c' :: d' :: t =>
          match unit? a' b' c' d' with
          | none => none
          | some v =>
            if isLowHalf v then
              (stringBody? t).map fun (s, rest) =>
                (Char.ofNat (0x10000 + (u - 0xD800) * 0x400 + (v - 0xDC00)) :: s, rest)
            else none
        | _ => none
      else if isLowHalf u then none
      else (stringBody? t).map fun (s, rest) => (Char.ofNat u :: s, rest)
  | '\\' :: e :: t =>
    match escape? e with
    | none => none
    | some c => (stringBody? t).map fun (s, rest) => (c :: s, rest)
  | c :: t =>
    if c.toNat < 0x20 || c == '\\' then none
    else (stringBody? t).map fun (s, rest) => (c :: s, rest)
  | [] => none

theorem length_of_stringBody? {t s rest : Text} (h : stringBody? t = some (s, rest)) :
    rest.length < t.length := by
  fun_induction stringBody? t generalizing s <;>
    simp only [Option.some.injEq, Prod.mk.injEq, Option.map_eq_some_iff, reduceCtorEq,
      Prod.exists, List.length_cons] at h ⊢ <;>
    grind

/-! ### Numerals -/

def digitsOf (t : Text) : List Nat := (t.takeWhile Char.isDigit).map fun c => c.toNat - '0'.toNat

def afterDigits (t : Text) : Text := t.dropWhile Char.isDigit

/-- Whether a minus stands first, and what follows the sign. -/
def sign : Text → Bool × Text
  | '-' :: t => (true, t)
  | t => (false, t)

/-- The digits after a point, if there is one. -/
def fraction? : Text → Option (List Nat × Text)
  | '.' :: t => if (digitsOf t).isEmpty then none else some (digitsOf t, afterDigits t)
  | t => some ([], t)

/-- The value of digits, the first one highest. -/
def naturalOf (ds : List Nat) : Nat := ds.foldl (fun n d => 10 * n + d) 0

/-- The sign of an exponent, which may be a plus. -/
def exponentSign : Text → Bool × Text
  | '+' :: t => (false, t)
  | t => sign t

/-- An exponent, if there is one. -/
def exponent? : Text → Option (Option Int × Text)
  | [] => some (none, [])
  | e :: t =>
    if e == 'e' || e == 'E' then
      let (negative, t) := exponentSign t
      let n : Int := naturalOf (digitsOf t)
      if (digitsOf t).isEmpty then none
      else some (some (if negative then -n else n), afterDigits t)
    else some (none, e :: t)

/-- The numeral without its sign that a text starts with, and the rest.  A zero at the start is the
only digit before the point. -/
def unsigned? (negative : Bool) (t : Text) : Option (Numeral × Text) :=
  let whole := digitsOf t
  if whole.isEmpty || (whole.head? == some 0 && 1 < whole.length) then none
  else do
    let (fraction, t) ← fraction? (afterDigits t)
    let (exponent, t) ← exponent? t
    some (⟨negative, whole, fraction, exponent⟩, t)

/-- The numeral that a text starts with, and the rest. -/
def numeral? (t : Text) : Option (Numeral × Text) := unsigned? (sign t).1 (sign t).2

theorem length_afterDigits_le (t : Text) : (afterDigits t).length ≤ t.length :=
  (List.dropWhile_sublist _).length_le

theorem length_afterDigits_lt {t : Text} (h : digitsOf t ≠ []) :
    (afterDigits t).length < t.length := by
  cases t with
  | nil => simp [digitsOf] at h
  | cons c t =>
    by_cases hc : c.isDigit = true
    · rw [afterDigits, List.dropWhile_cons, if_pos hc]
      exact Nat.lt_succ_of_le (length_afterDigits_le t)
    · simp [digitsOf, hc] at h

theorem length_sign_le (t : Text) : (sign t).2.length ≤ t.length := by
  unfold sign
  split <;> simp

theorem length_of_fraction? {t rest : Text} {ds : List Nat} (h : fraction? t = some (ds, rest)) :
    rest.length ≤ t.length := by
  unfold fraction? at h
  split at h
  · next t =>
    have := length_afterDigits_le t
    split at h <;> simp_all
    omega
  · simp_all

theorem length_exponentSign_le (t : Text) : (exponentSign t).2.length ≤ t.length := by
  unfold exponentSign
  split
  · simp
  · exact length_sign_le _

theorem length_of_exponent? {t rest : Text} {e : Option Int}
    (h : exponent? t = some (e, rest)) : rest.length ≤ t.length := by
  unfold exponent? at h
  split at h
  · simp_all
  · next c t =>
    split at h
    · simp only at h
      split at h
      · simp at h
      · simp only [Option.some.injEq, Prod.mk.injEq] at h
        rw [← h.2]
        exact Nat.le_succ_of_le
          (Nat.le_trans (length_afterDigits_le _) (length_exponentSign_le t))
    · simp_all

theorem length_of_numeral? {t rest : Text} {n : Numeral} (h : numeral? t = some (n, rest)) :
    rest.length < t.length := by
  refine Nat.lt_of_lt_of_le ?_ (length_sign_le t)
  unfold numeral? unsigned? at h
  simp only [Bool.or_eq_true, List.isEmpty_iff] at h
  split at h
  · simp at h
  · next hw =>
    simp only [Option.bind_eq_bind, Option.bind_eq_some_iff, Option.some.injEq, Prod.mk.injEq,
      Prod.exists] at h
    obtain ⟨ds, t₁, h₁, e, t₂, h₂, -, rfl⟩ := h
    exact Nat.lt_of_le_of_lt (length_of_exponent? h₂) (Nat.lt_of_le_of_lt (length_of_fraction? h₁)
      (length_afterDigits_lt fun h => hw (Or.inl h)))

/-! ### Tokens -/

/-- The token that starts with `c`, and the rest. -/
def tokenHere? (c : Char) (t : Text) : Option (Token × Text) :=
  match c with
  | '\x7b' => some (.openBrace, t)
  | '\x7d' => some (.closeBrace, t)
  | '[' => some (.openBracket, t)
  | ']' => some (.closeBracket, t)
  | ':' => some (.colon, t)
  | ',' => some (.comma, t)
  | '"' => (stringBody? t).map fun (s, rest) => (.string (String.ofList s), rest)
  | 'n' => (Text.after? "ull".toList t).map (.null, ·)
  | 't' => (Text.after? "rue".toList t).map (.bool true, ·)
  | 'f' => (Text.after? "alse".toList t).map (.bool false, ·)
  | _ => do
    let (numeral, rest) ← numeral? (c :: t)
    return (.number (← numeral.value?), rest)

theorem length_of_tokenHere? {c : Char} {t rest : Text} {token : Token}
    (h : tokenHere? c t = some (token, rest)) : rest.length < t.length + 1 := by
  have word {w : Text} {k : Token} (hw : (Text.after? w t).map (k, ·) = some (token, rest)) :
      rest.length < t.length + 1 := by
    obtain ⟨r, hr, heq⟩ := Option.map_eq_some_iff.mp hw
    cases heq
    rw [Text.after?_eq_some_iff] at hr
    simp only [hr, List.length_append]
    omega
  unfold tokenHere? at h
  split at h <;> try (simp only [Option.some.injEq, Prod.mk.injEq] at h; simp [← h.2])
  · obtain ⟨⟨s, r⟩, hs, heq⟩ := Option.map_eq_some_iff.mp h
    cases heq
    exact Nat.lt_succ_of_lt (length_of_stringBody? hs)
  · exact word h
  · exact word h
  · exact word h
  · simp only [Option.bind_eq_bind, Option.bind_eq_some_iff, Option.some.injEq, Prod.mk.injEq,
      Prod.exists, Option.pure_def] at h
    obtain ⟨n, r, hn, v, -, -, rfl⟩ := h
    exact length_of_numeral? hn

/-- The blanks between tokens. -/
def isGap (c : Char) : Bool := c == ' ' || c == '\n' || c == '\t' || c == '\r'

/-- The tokens of a text; `none` if some character starts none. -/
def tokens? : Text → Option (List Token)
  | [] => some []
  | c :: t =>
    if isGap c then tokens? t
    else
      match _h : tokenHere? c t with
      | none => none
      | some (token, rest) => (tokens? rest).map (token :: ·)
termination_by t => t.length
decreasing_by
  · simp
  · exact length_of_tokenHere? _h

end DocComment.Json
