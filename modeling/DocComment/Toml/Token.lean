/-
The tokens of a TOML document.

A word is a row of letters, digits, hyphens, underscores, signs and points; keys, numbers and the
two truth values are words.  Strings stand in double quotes, with escapes, or in single quotes,
without.  Comments and blanks are dropped, line breaks are tokens.
-/
import DocComment.Json.Token

namespace DocComment.Toml

inductive Token where
  | newline
  | equals
  | comma
  | openBracket
  | closeBracket
  | openBrace
  | closeBrace
  | word (t : Text)
  | quoted (s : String)
deriving DecidableEq, Repr

def isWordChar (c : Char) : Bool :=
  c.isAlphanum || c == '-' || c == '_' || c == '+' || c == '.'

/-- The token of a mark. -/
def markOf? : Char → Option Token
  | '\n' => some .newline
  | '=' => some .equals
  | ',' => some .comma
  | '[' => some .openBracket
  | ']' => some .closeBracket
  | '\x7b' => some .openBrace
  | '\x7d' => some .closeBrace
  | _ => none

/-- The string up to the single quote, and what follows it. -/
def literalBody? : Text → Option (Text × Text)
  | [] => none
  | c :: t =>
    if c = '\x27' then some ([], t)
    else if c.toNat < 0x20 && c != '\t' then none
    else (literalBody? t).map fun (s, rest) => (c :: s, rest)

theorem length_of_literalBody? {t s rest : Text} (h : literalBody? t = some (s, rest)) :
    rest.length < t.length := by
  fun_induction literalBody? t generalizing s <;> grind [Option.map_eq_some_iff]

/-- The string that starts here and what follows it. -/
def string? : Text → Option (Text × Text)
  | '"' :: t => Json.stringBody? t
  | '\x27' :: t => literalBody? t
  | _ => none

theorem length_of_string? {t s rest : Text} (h : string? t = some (s, rest)) :
    rest.length < t.length := by
  unfold string? at h
  split at h
  · exact Nat.lt_succ_of_lt (Json.length_of_stringBody? h)
  · exact Nat.lt_succ_of_lt (length_of_literalBody? h)
  · simp at h

/-- The tokens of a text. -/
def tokens? : Text → Option (List Token)
  | [] => some [.newline]
  | c :: t =>
    if isIndent c || c = '\r' then tokens? t
    else if c = '#' then tokens? (t.dropWhile (· ≠ '\n'))
    else if isWordChar c then
      (tokens? (t.dropWhile isWordChar)).map (.word (c :: t.takeWhile isWordChar) :: ·)
    else match markOf? c with
      | some token => (tokens? t).map (token :: ·)
      | none =>
        match _h : string? (c :: t) with
        | some (s, rest) => (tokens? rest).map (.quoted (String.ofList s) :: ·)
        | none => none
termination_by t => t.length
decreasing_by
  · simp
  · exact Nat.lt_succ_of_le (List.dropWhile_sublist _).length_le
  · exact Nat.lt_succ_of_le (List.dropWhile_sublist _).length_le
  · simp
  · exact length_of_string? _h

end DocComment.Toml
