/-
The shortest decimal that reads back as a given binary64 number, and its spelling.

A binary64 number stands for an interval of reals, those that round to it.  `shortest?` goes through
the decimal grids of one, two, … seventeen significant digits and takes the first grid with a point
in the interval; of the two grid points beside the number it takes the nearer.  All comparisons are
between natural numbers.

`layout` spells digits and exponent: positional between `1e-5` and `1e16`, with a point always,
otherwise one digit, a point if more digits follow, and the exponent without plus sign.

Design notes: lengths are scaled by four, so that the ends of the interval are whole numbers.  The
interval is shorter below a power of two, and its ends belong to it when the significand is even.
-/
import DocComment.Number.Basic

namespace DocComment.Number

/-- A finite positive binary64 number, `m · 2 ^ q`; `narrow` when its lower neighbour is nearer. -/
structure Binary where
  m : Nat
  q : Int
  narrow : Bool

def isNegative (bits : UInt64) : Bool := bits >>> 63 == 1

/-- The size of a finite binary64 number. -/
def Binary.ofBits (bits : UInt64) : Binary :=
  let exponent := (bits >>> 52 &&& 0x7ff).toNat
  let fraction := (bits &&& 0xfffffffffffff).toNat
  if exponent = 0 then ⟨fraction, -1074, false⟩
  else ⟨fraction + 0x10000000000000, exponent - 1075, fraction == 0 && 1 < exponent⟩

/-- `digits · 10 ^ exponent`. -/
structure Decimal where
  digits : Nat
  exponent : Int
deriving DecidableEq, Repr

def digitCount (n : Nat) : Nat := (Nat.toDigits 10 n).length

/-- The `p` with `10 ^ p ≤ num / den < 10 ^ (p + 1)`. -/
def magnitude (num den : Nat) : Int :=
  if den ≤ num then digitCount (num / den) - 1
  else -(digitCount ((den + num - 1) / num - 1))

/-- Whether the decimal `c · 10 ^ k` lies between `low / den` and `high / den`. -/
def within (closed : Bool) (low high den c : Nat) (k : Int) : Bool :=
  let (x, y) := (c * tenTo k.toNat * den, tenTo (-k).toNat)
  if closed then low * y ≤ x && x ≤ high * y else low * y < x && x < high * y

/-- The point of the grid of `n` digits that lies in the interval of `b`, the nearer one of two; an
exact tie goes to the even digit. -/
def gridPoint? (b : Binary) (n : Nat) : Option Decimal :=
  let up := 1 <<< (b.q - 2).toNat
  let den := 1 <<< (2 - b.q).toNat
  let value := 4 * b.m * up
  let low := (4 * b.m - (if b.narrow then 1 else 2)) * up
  let high := (4 * b.m + 2) * up
  let k := magnitude value den - n + 1
  let (scaled, unit) := (value * tenTo (-k).toNat, den * tenTo k.toNat)
  let c := scaled / unit
  let fits := within (b.m % 2 == 0) low high den
  let twice := 2 * (scaled - c * unit)
  let downFirst := twice < unit || (twice == unit && c % 2 == 0)
  let candidates := if downFirst then [c, c + 1] else [c + 1, c]
  (candidates.find? (fits · k)).map fun c => if c = tenTo n then ⟨1, k + n⟩ else ⟨c, k⟩

def shortest? (b : Binary) : Option Decimal :=
  (List.range 17).findSome? fun i => gridPoint? b (i + 1)

def zeros (n : Nat) : List Char := List.replicate n '0'

/-- The spelling of a decimal. -/
def layout (d : Decimal) : List Char :=
  let ds := Nat.toDigits 10 d.digits
  let point := ds.length + d.exponent
  if 0 ≤ d.exponent && point ≤ 16 then ds ++ zeros d.exponent.toNat ++ ['.', '0']
  else if 0 < point && point ≤ 16 then ds.take point.toNat ++ '.' :: ds.drop point.toNat
  else if -5 < point && point ≤ 0 then '0' :: '.' :: zeros (-point).toNat ++ ds
  else
    let tail := if ds.length = 1 then [] else '.' :: ds.drop 1
    ds.take 1 ++ tail ++ 'e' :: (toString (point - 1)).toList

/-- A number as JSON writes it. -/
def text : Number → String
  | .integer n => toString n
  | .real bits =>
    let sign := if isNegative bits then ['-'] else []
    let b := Binary.ofBits bits
    String.ofList (sign ++ if b.m = 0 then "0.0".toList else ((shortest? b).map layout).getD [])

end DocComment.Number
