/-!
Floating point numbers by their bits.

A number is its 64-bit pattern of IEEE 754.  `decode` reads the pattern as a sign, a mantissa and a
power of two, and all else is exact arithmetic on these: `toInt?` gives the integer that a number
is, `truncate?` the one left when the fraction is dropped, and `ofRatio` rounds a quotient of
naturals to the nearest number, a tie to the even one.  No operation of the machine's own floating
point is used, so every value here can be computed in a proof.
-/

namespace RecordTables

structure Binary64 where
  bits : UInt64
  deriving DecidableEq, Repr

namespace Binary64

/-- What a pattern stands for.  A finite number is `mantissa · 2 ^ exponent` under its sign. -/
inductive Decoded where
  | nan
  | infinite (negative : Bool)
  | finite (negative : Bool) (mantissa : Nat) (exponent : Int)
  deriving DecidableEq, Repr

/-- The value of the bit above the fraction, which a normal number has and its pattern leaves
out. -/
def hiddenBit : Nat := 0x10000000000000

def isNegative (x : Binary64) : Bool := 0x8000000000000000 ≤ x.bits.toNat

def exponentField (x : Binary64) : Nat := x.bits.toNat / hiddenBit % 2048

def fractionField (x : Binary64) : Nat := x.bits.toNat % hiddenBit

/-- The value of a pattern.  The least exponent field has no hidden bit. -/
def decode (x : Binary64) : Decoded :=
  if x.exponentField = 2047 then
    if x.fractionField = 0 then .infinite x.isNegative else .nan
  else if x.exponentField = 0 then .finite x.isNegative x.fractionField (-1074)
  else .finite x.isNegative (hiddenBit + x.fractionField) ((x.exponentField : Int) - 1075)

def isNaN (x : Binary64) : Bool := x.decode = .nan

/-- The quotient of two naturals as the nearest natural, a tie to the even one. -/
def roundQuotient (num den : Nat) : Nat :=
  let q := num / den
  let r := num % den
  if 2 * r < den ∨ (2 * r = den ∧ q % 2 = 0) then q else q + 1

/-- The power of two at or below a positive quotient: `2 ^ k ≤ num / den < 2 ^ (k + 1)`. -/
def binaryMagnitude (num den : Nat) : Int :=
  let k : Int := (Nat.log2 num : Int) - (Nat.log2 den : Int)
  if num * Nat.pow 2 (-k).toNat < den * Nat.pow 2 k.toNat then k - 1 else k

def infinityBits : Nat := 2047 * hiddenBit

/-- The bits, less the sign, of the number nearest to a quotient.  The mantissa has fifty-three
bits, or fewer at the bottom of the range, and its carry moves into the exponent by itself. -/
def magnitudeBits (num den : Nat) : Nat :=
  if num = 0 then 0
  else
    let q := max (binaryMagnitude num den - 52) (-1074)
    let m := roundQuotient (num * Nat.pow 2 (-q).toNat) (den * Nat.pow 2 q.toNat)
    min infinityBits ((q + 1074).toNat * hiddenBit + m)

def ofRatio (negative : Bool) (num den : Nat) : Binary64 :=
  ⟨UInt64.ofNat ((if negative then 0x8000000000000000 else 0) + magnitudeBits num den)⟩

def ofInt (i : Int) : Binary64 := ofRatio (i < 0) i.natAbs 1

def zero : Binary64 := ⟨0⟩

def neg (x : Binary64) : Binary64 := ⟨x.bits ^^^ 0x8000000000000000⟩

def signed (negative : Bool) (n : Nat) : Int := if negative then -(n : Int) else n

def toInt? (x : Binary64) : Option Int :=
  match x.decode with
  | .finite s m e =>
    if 0 ≤ e then some (signed s (m * Nat.pow 2 e.toNat))
    else if m % Nat.pow 2 (-e).toNat = 0 then some (signed s (m / Nat.pow 2 (-e).toNat))
    else none
  | _ => none

def truncate? (x : Binary64) : Option Int :=
  match x.decode with
  | .finite s m e => some (signed s (m * Nat.pow 2 e.toNat / Nat.pow 2 (-e).toNat))
  | _ => none

/-- Whether the fraction of the number is zero.  A number that is not finite has none. -/
def isWhole (x : Binary64) : Bool :=
  match x.decode with
  | .finite _ m e => m % Nat.pow 2 (-e).toNat = 0
  | _ => false

/-- How often a finite number has a power of two in it that is not above its own. -/
def multiple (negative : Bool) (mantissa : Nat) (exponent power : Int) : Int :=
  signed negative (mantissa * Nat.pow 2 (exponent - power).toNat)

/-- How two numbers compare.  A pattern that is no number compares with none. -/
def compare? (x y : Binary64) : Option Ordering :=
  match x.decode, y.decode with
  | .finite s m e, .finite s' m' e' =>
    some (compare (multiple s m e (min e e')) (multiple s' m' e' (min e e')))
  | .infinite s, .finite .. => some (if s then .lt else .gt)
  | .finite .., .infinite s => some (if s then .gt else .lt)
  | .infinite s, .infinite s' => some (compare s' s)
  | _, _ => none

/-- The number as an integer of 64 bits.  The fraction is dropped, a number beyond the limits becomes
the nearer limit, and a pattern that is no number becomes zero. -/
def toInt64 (x : Binary64) : Int64 :=
  match x.decode with
  | .nan => 0
  | .infinite s => if s then Int64.minValue else Int64.maxValue
  | .finite s m e =>
    let whole := signed s (m * Nat.pow 2 e.toNat / Nat.pow 2 (-e).toNat)
    .ofInt (max Int64.minValue.toInt (min Int64.maxValue.toInt whole))

def ratio? (x : Binary64) : Option (Nat × Nat) :=
  match x.decode with
  | .finite _ m e => some (m * Nat.pow 2 e.toNat, Nat.pow 2 (-e).toNat)
  | _ => none

/-- Whether two numbers are equal as numbers: no pattern that is no number equals any, and the two
zeros are equal. -/
def numericEq (x y : Binary64) : Bool :=
  !x.isNaN && !y.isNaN && (x.bits == y.bits || (x.bits ||| y.bits) == 0x8000000000000000)

/-- The integer limits: the lower one is a number of this format and stays itself. -/
example : toInt? ⟨0xc3e0000000000000⟩ = some (-(2 ^ 63)) := by decide +kernel

/-- Both zeros are the integer zero. -/
example : toInt? ⟨0x8000000000000000⟩ = some 0 ∧ toInt? zero = some 0 := by decide +kernel

/-- The largest integer of 64 bits rounds up. -/
example : ofInt (2 ^ 63 - 1) = ⟨0x43e0000000000000⟩ := by decide +kernel

end Binary64
end RecordTables
