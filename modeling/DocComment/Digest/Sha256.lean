/-
SHA-256, the digest that names a comment without a name of its own.

The message is padded to whole blocks of sixteen words (`pad`, `blocksOf`), each block is stretched
to a schedule of sixty-four words (`schedule`), and the eight state words are mixed with each
schedule in turn (`absorb`).  `hexDigest` writes the final state as hexadecimal digits.

* `length_hexDigest` — a digest has sixty-four digits;
* `isHexDigit_of_mem_hexDigest` — they are decimal digits and the letters `a` to `f`.

Design notes: words are `UInt32`, whose addition wraps as the algorithm asks.  The state is a
structure of eight words, so its size is a matter of type.
-/
import DocComment.Text.Blank

namespace DocComment.Sha256

/-- The eight words of the running digest. -/
structure State where
  a : UInt32
  b : UInt32
  c : UInt32
  d : UInt32
  e : UInt32
  f : UInt32
  g : UInt32
  h : UInt32

/-- The fractional parts of the square roots of the first eight primes. -/
def initial : State :=
  ⟨0x6a09e667, 0xbb67ae85, 0x3c6ef372, 0xa54ff53a, 0x510e527f, 0x9b05688c, 0x1f83d9ab, 0x5be0cd19⟩

/-- The fractional parts of the cube roots of the first sixty-four primes. -/
def roundConstants : List UInt32 :=
  [0x428a2f98, 0x71374491, 0xb5c0fbcf, 0xe9b5dba5, 0x3956c25b, 0x59f111f1, 0x923f82a4, 0xab1c5ed5,
   0xd807aa98, 0x12835b01, 0x243185be, 0x550c7dc3, 0x72be5d74, 0x80deb1fe, 0x9bdc06a7, 0xc19bf174,
   0xe49b69c1, 0xefbe4786, 0x0fc19dc6, 0x240ca1cc, 0x2de92c6f, 0x4a7484aa, 0x5cb0a9dc, 0x76f988da,
   0x983e5152, 0xa831c66d, 0xb00327c8, 0xbf597fc7, 0xc6e00bf3, 0xd5a79147, 0x06ca6351, 0x14292967,
   0x27b70a85, 0x2e1b2138, 0x4d2c6dfc, 0x53380d13, 0x650a7354, 0x766a0abb, 0x81c2c92e, 0x92722c85,
   0xa2bfe8a1, 0xa81a664b, 0xc24b8b70, 0xc76c51a3, 0xd192e819, 0xd6990624, 0xf40e3585, 0x106aa070,
   0x19a4c116, 0x1e376c08, 0x2748774c, 0x34b0bcb5, 0x391c0cb3, 0x4ed8aa4a, 0x5b9cca4f, 0x682e6ff3,
   0x748f82ee, 0x78a5636f, 0x84c87814, 0x8cc70208, 0x90befffa, 0xa4506ceb, 0xbef9a3f7, 0xc67178f2]

/-- Rotation to the right. -/
def rotate (x : UInt32) (n : UInt32) : UInt32 := (x >>> n) ||| (x <<< (32 - n))

/-! ### Padding -/

/-- The word `n` of a message, eight bytes, highest first. -/
def lengthBytes (n : Nat) : List UInt8 :=
  [56, 48, 40, 32, 24, 16, 8, 0].map fun shift => UInt8.ofNat (n >>> shift)

/-- The message, a one bit, zeros up to a whole number of blocks, and the length in bits. -/
def pad (message : List UInt8) : List UInt8 :=
  message ++ 0x80 :: List.replicate ((119 - message.length % 64) % 64) 0 ++
    lengthBytes (8 * message.length)

/-- Four bytes to a word, highest first. -/
def wordsOf : List UInt8 → List UInt32
  | a :: b :: c :: d :: rest =>
    (a.toUInt32 <<< 24 ||| b.toUInt32 <<< 16 ||| c.toUInt32 <<< 8 ||| d.toUInt32) :: wordsOf rest
  | _ => []

/-- Sixteen words to a block. -/
def blocksOf (words : List UInt32) : List (List UInt32) :=
  (List.range (words.length / 16)).map fun i => (words.drop (16 * i)).take 16

/-! ### Mixing -/

/-- Appends `n` words to a schedule that is kept with the newest word first. -/
def stretch : Nat → List UInt32 → List UInt32
  | 0, w => w
  | n + 1, w =>
    let two := w.getD 1 0
    let fifteen := w.getD 14 0
    let s₁ := rotate two 17 ^^^ rotate two 19 ^^^ two >>> 10
    let s₀ := rotate fifteen 7 ^^^ rotate fifteen 18 ^^^ fifteen >>> 3
    stretch n ((s₁ + w.getD 6 0 + s₀ + w.getD 15 0) :: w)

def schedule (block : List UInt32) : List UInt32 := (stretch 48 block.reverse).reverse

/-- One round, with the sum of its constant and its schedule word. -/
def round (s : State) (kw : UInt32) : State :=
  let s₁ := rotate s.e 6 ^^^ rotate s.e 11 ^^^ rotate s.e 25
  let choice := (s.e &&& s.f) ^^^ (~~~s.e &&& s.g)
  let t₁ := s.h + s₁ + choice + kw
  let s₀ := rotate s.a 2 ^^^ rotate s.a 13 ^^^ rotate s.a 22
  let majority := (s.a &&& s.b) ^^^ (s.a &&& s.c) ^^^ (s.b &&& s.c)
  ⟨t₁ + (s₀ + majority), s.a, s.b, s.c, s.d + t₁, s.e, s.f, s.g⟩

/-- Mixes a block into the digest. -/
def absorb (s : State) (block : List UInt32) : State :=
  let r := (List.zipWith (· + ·) roundConstants (schedule block)).foldl round s
  ⟨s.a + r.a, s.b + r.b, s.c + r.c, s.d + r.d, s.e + r.e, s.f + r.f, s.g + r.g, s.h + r.h⟩

def digest (message : List UInt8) : State := (blocksOf (wordsOf (pad message))).foldl absorb initial

/-! ### Hexadecimal digits -/

/-- The eight digits of a word, highest first. -/
def hexWord (w : UInt32) : Text :=
  [7, 6, 5, 4, 3, 2, 1, 0].map fun i => Nat.digitChar ((w.toNat >>> (4 * i)) % 16)

/-- The digits of a digest. -/
def State.hex (s : State) : Text :=
  [s.a, s.b, s.c, s.d, s.e, s.f, s.g, s.h].flatMap hexWord

/-- The digest of a text's UTF-8 bytes, in hexadecimal digits. -/
def hexDigest (text : String) : String := String.ofList (digest text.toUTF8.toList).hex

theorem length_hex (s : State) : s.hex.length = 64 := by
  simp [State.hex, hexWord]

theorem length_hexDigest (text : String) : (hexDigest text).length = 64 := by
  rw [hexDigest, String.length_ofList, length_hex]

theorem isHexDigit_digitChar {n : Nat} (h : n < 16) :
    Nat.digitChar n ∈ "0123456789abcdef".toList := by
  revert n
  decide

theorem isHexDigit_of_mem_hexDigest {text : String} {c : Char} (h : c ∈ (hexDigest text).toList) :
    c ∈ "0123456789abcdef".toList := by
  rw [hexDigest, String.toList_ofList, State.hex, List.mem_flatMap] at h
  obtain ⟨w, _, hc⟩ := h
  obtain ⟨i, _, rfl⟩ := List.mem_map.mp hc
  exact isHexDigit_digitChar (Nat.mod_lt _ (by decide))

end DocComment.Sha256
