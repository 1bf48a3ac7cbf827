/-
Numbers as JSON documents hold them.

A numeral without point and exponent whose value fits 64 bits, signed or unsigned, is that integer;
every other numeral is a binary64 number, kept as its 64 bits.

`Numeral.value?` reads a numeral; it fails only for one too large for a binary64 number.

Design notes: a significand keeps the leading digits that fit 64 unsigned bits (`significand`).  It
is rounded once and then scaled by one power of ten (`scale`), so a numeral with many digits may
land on a neighbour of the nearest number.  Minus zero is no integer.
-/

namespace DocComment

inductive Number where
  | integer (n : Int)
  | real (bits : UInt64)
deriving DecidableEq, Repr, Inhabited

/-- The digits of a number as written. -/
structure Numeral where
  negative : Bool
  /-- The digits before the point. -/
  whole : List Nat
  /-- The digits after the point. -/
  fraction : List Nat
  exponent : Option Int
deriving DecidableEq, Repr

/-- A power of ten. -/
def tenTo (k : Nat) : Nat := Nat.pow 10 k

namespace Numeral

/-- Appends digits to `m` as long as the result fits 64 bits; the digits left over. -/
def significand (m : Nat) : List Nat → Nat × List Nat
  | [] => (m, [])
  | d :: ds =>
    if 10 * m + d < 0x10000000000000000 then significand (10 * m + d) ds else (m, d :: ds)

def powerOfTen (k : Nat) : Float := Float.ofScientific 1 false k

/-- `m` times ten to the `e`; `none` beyond the largest binary64 number. -/
def scale (m : Nat) (e : Int) : Option Float :=
  let f := Float.ofScientific m false 0
  if m = 0 then some f
  else if 308 < e then none
  else if 0 ≤ e then
    let g := f * powerOfTen e.toNat
    if g.isInf then none else some g
  else if -308 ≤ e then some (f / powerOfTen (-e).toNat)
  else if -616 ≤ e then some (f / powerOfTen 308 / powerOfTen (-e - 308).toNat)
  else some 0

/-- The number that a numeral denotes. -/
def value? (n : Numeral) : Option Number :=
  let (m, left) := significand 0 n.whole
  if n.fraction.isEmpty && n.exponent.isNone && left.isEmpty &&
      (!n.negative || (0 < m && m ≤ 0x8000000000000000)) then
    some (.integer (if n.negative then -m else m))
  else
    let (m', left') := significand m n.fraction
    let e := left.length - (n.fraction.length - left'.length : Nat) + n.exponent.getD 0
    (scale m' e).map fun f => .real (if n.negative then -f else f).toBits

end Numeral

end DocComment
