import RecordTables.Number.Binary64

/-!
Floating point numbers in decimal digits.

A finite number stands for every real closer to it than to its neighbours, and the two ends of that
interval belong to it when its mantissa is even.  `shortest` looks for a decimal in the interval, of
one digit first and of one more each time; of two with the same number of digits it takes the one
closer to the number.  `rounded` gives the nearest decimal of so many digits.  `Layout` says which
of the two is written and how its digits are set out: plainly, or with a power of ten when the point
would stand too far away.
-/

namespace RecordTables

/-- A decimal number `coefficient · 10 ^ exponent`. -/
structure Decimal where
  coefficient : Nat
  exponent : Int
  deriving DecidableEq, Repr

namespace Decimal

def digits (n : Nat) : List Char := Nat.toDigits 10 n

/-- The power of ten at or below a positive quotient: `10 ^ k ≤ num / den < 10 ^ (k + 1)`. -/
def magnitude (num den : Nat) : Int :=
  if den ≤ num then ((digits (num / den)).length : Int) - 1
  else -((digits ((den + num - 1) / num - 1)).length : Int)

/-- The reals that round to a positive number, as quotients by one denominator.  `value` is the
number itself. -/
structure Interval where
  low : Nat
  value : Nat
  high : Nat
  den : Nat
  closed : Bool

/-- The interval of `mantissa · 2 ^ exponent`.  Below the least mantissa of a binade the numbers
stand twice as close. -/
def Interval.of (mantissa : Nat) (exponent : Int) : Interval :=
  let scale := Nat.pow 2 (exponent - 2).toNat
  let below := if mantissa = 0x10000000000000 ∧ exponent ≠ -1074 then 1 else 2
  ⟨(4 * mantissa - below) * scale, 4 * mantissa * scale, (4 * mantissa + 2) * scale,
    Nat.pow 2 (2 - exponent).toNat, mantissa % 2 = 0⟩

def Interval.holds (i : Interval) (d : Decimal) : Bool :=
  let num := d.coefficient * Nat.pow 10 d.exponent.toNat * i.den
  let den := Nat.pow 10 (-d.exponent).toNat
  if i.closed then i.low * den ≤ num ∧ num ≤ i.high * den
  else i.low * den < num ∧ num < i.high * den

inductive Tie where
  | up
  | even
  deriving DecidableEq, Repr

/-- Whether the decimal above the value is taken, by the remainder of the value and its quotient. -/
def Tie.above (tie : Tie) (quotient remainder den : Nat) : Bool :=
  den < 2 * remainder || (den = 2 * remainder && (tie = .up || quotient % 2 = 1))

/-- The decimal in the interval that is a multiple of `10 ^ exponent` and closest to the value. -/
def Interval.onGrid? (i : Interval) (tie : Tie) (exponent : Int) : Option Decimal :=
  let num := i.value * Nat.pow 10 (-exponent).toNat
  let den := i.den * Nat.pow 10 exponent.toNat
  let below : Decimal := ⟨num / den, exponent⟩
  let above : Decimal := ⟨num / den + 1, exponent⟩
  match i.holds below, i.holds above with
  | true, true => if tie.above (num / den) (num % den) den then some above else some below
  | true, false => some below
  | false, true => some above
  | false, false => none

/-- The decimal of fewest digits in the interval of a positive number.  Seventeen digits always
suffice; the last line only completes the function. -/
def shortest (tie : Tie) (mantissa : Nat) (exponent : Int) : Decimal :=
  let i := Interval.of mantissa exponent
  let top := magnitude i.value i.den
  match (List.range 17).findSome? fun (n : Nat) => i.onGrid? tie (top - n) with
  | some d => d
  | none => ⟨i.value * Nat.pow 10 17 / i.den, -17⟩

/-- The decimal of `count` significant digits nearest to a positive number; of two, the even one. -/
def rounded (count mantissa : Nat) (exponent : Int) : Decimal :=
  let num := mantissa * Nat.pow 2 exponent.toNat
  let den := Nat.pow 2 (-exponent).toNat
  let last := magnitude num den - count + 1
  ⟨Binary64.roundQuotient (num * Nat.pow 10 (-last).toNat) (den * Nat.pow 10 last.toNat), last⟩

/-- The decimal without zeros at the end of its coefficient.  `fuel` bounds their number. -/
def dropZeros : Nat → Decimal → Decimal
  | 0, d => d
  | fuel + 1, d =>
    if d.coefficient ≠ 0 ∧ d.coefficient % 10 = 0 then
      dropZeros fuel ⟨d.coefficient / 10, d.exponent + 1⟩
    else d

/-- The digits with the point in its place and zeros as needed; no point when nothing follows. -/
def positional (d : Decimal) : String :=
  let ds := digits d.coefficient
  if 0 ≤ d.exponent then String.ofList (ds ++ List.replicate d.exponent.toNat '0')
  else
    let places := (-d.exponent).toNat
    let padded := List.replicate (places + 1 - ds.length) '0' ++ ds
    let point := padded.length - places
    String.ofList (padded.take point ++ '.' :: padded.drop point)

/-- One digit, a point and the others, and the power of ten under its sign in at least so many
digits. -/
def scientific (powerDigits : Nat) (d : Decimal) : String :=
  let ds := digits d.coefficient
  let power := d.exponent + ds.length - 1
  let fraction := if ds.length = 1 then [] else '.' :: ds.drop 1
  let shown := digits power.natAbs
  let padded := List.replicate (powerDigits - shown.length) '0' ++ shown
  String.ofList (ds.take 1 ++ fraction ++ 'e' :: (if power < 0 then '-' else '+') :: padded)

/-- Which digits of a number are written: the fewest that read back, or so many of them at most. -/
inductive Precision where
  | shortest (tie : Tie)
  | significant (count : Nat)
  deriving DecidableEq, Repr

def Precision.decimal : Precision → (mantissa : Nat) → (exponent : Int) → Decimal
  | .shortest tie, m, e => Decimal.shortest tie m e
  | .significant count, m, e => rounded count m e

/-- How numbers are set out: their digits, the powers of ten of a leading digit that are written
positionally (all of them if there are no bounds), the least number of digits in the power of any
other, and whether an integer keeps a point and a zero. -/
structure Layout where
  precision : Precision
  bounds : Option (Int × Int)
  powerDigits : Nat
  point : Bool
  nan : String
  infinity : String

def Layout.write (layout : Layout) (d : Decimal) : String :=
  let d := dropZeros 20 d
  let power := d.exponent + (digits d.coefficient).length - 1
  let plain := if layout.point ∧ 0 ≤ d.exponent then d.positional ++ ".0" else d.positional
  match layout.bounds with
  | none => plain
  | some (low, high) =>
    if low ≤ power ∧ power ≤ high then plain else d.scientific layout.powerDigits

def Layout.text (layout : Layout) (x : Binary64) : String :=
  let sign (negative : Bool) : String := if negative then "-" else ""
  match x.decode with
  | .nan => layout.nan
  | .infinite s => sign s ++ layout.infinity
  | .finite s 0 _ => sign s ++ if layout.point then "0.0" else "0"
  | .finite s m e => sign s ++ layout.write (layout.precision.decimal m e)

end Decimal
end RecordTables
