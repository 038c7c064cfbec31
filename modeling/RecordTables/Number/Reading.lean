import RecordTables.Number.Binary64

/-!
Texts that Lua takes for numbers.

A text is a number when, blanks at its ends aside, it is an optional sign and a decimal or
hexadecimal numeral.  A numeral of digits alone is an integer; a hexadecimal one wraps at 64 bits,
and a decimal one that does not fit is a floating point number, as is every numeral with a point or
an exponent.
-/

namespace RecordTables
namespace Reading

inductive Outcome where
  | integer (i : Int64)
  | float (x : Binary64)
  deriving DecidableEq, Repr

def isBlank (c : Char) : Bool :=
  c = ' ' || c = '\t' || c = '\n' || c = '\r' || c = '\x0b' || c = '\x0c'

def trim (text : List Char) : List Char :=
  ((text.dropWhile isBlank).reverse.dropWhile isBlank).reverse

def digit? (base : Nat) (c : Char) : Option Nat :=
  let value : Option Nat :=
    if c.isDigit then some (c.toNat - '0'.toNat)
    else if 'a' ≤ c ∧ c ≤ 'f' then some (c.toNat - 'a'.toNat + 10)
    else if 'A' ≤ c ∧ c ≤ 'F' then some (c.toNat - 'A'.toNat + 10)
    else none
  value.filter (· < base)

/-- The digits at the front of a text: their value, their number, and the text after them. -/
def digits (base : Nat) (value count : Nat) : List Char → Nat × Nat × List Char
  | [] => (value, count, [])
  | c :: rest =>
    match digit? base c with
    | some d => digits base (value * base + d) (count + 1) rest
    | none => (value, count, c :: rest)

def sign : List Char → Bool × List Char
  | '-' :: rest => (true, rest)
  | '+' :: rest => (false, rest)
  | text => (false, text)

/-- The exponent that ends a numeral: nothing, or one of the two letters and a signed number. -/
def exponent? (letters : List Char) : List Char → Option (Option Int)
  | [] => some none
  | c :: rest =>
    if c ∈ letters then
      let (negative, rest) := sign rest
      match digits 10 0 0 rest with
      | (n, count, []) =>
        if count = 0 then none else some (some (if negative then -(n : Int) else n))
      | _ => none
    else none

/-- A size `value · radix ^ power` under a sign. -/
def scaled (negative : Bool) (value radix : Nat) (power : Int) : Binary64 :=
  if value = 0 then .ofRatio negative 0 1
  else if 5000 < power then .ofRatio negative (Nat.pow 2 1100) 1
  else if power < -5000 - 4 * (Nat.log2 value : Int) then .ofRatio negative 0 1
  else .ofRatio negative (value * Nat.pow radix power.toNat) (Nat.pow radix (-power).toNat)

/-- An unsigned numeral.  In base ten the exponent counts tens, in base sixteen twos. -/
def numeral? (negative : Bool) (base : Nat) (text : List Char) : Option Outcome :=
  let (whole, n, rest) := digits base 0 0 text
  let (value, places, pointed, rest) := match rest with
    | '.' :: rest =>
      let (value, places, rest) := digits base whole 0 rest
      (value, places, true, rest)
    | _ => (whole, 0, false, rest)
  if n + places = 0 then none
  else
    let letters := if base = 10 then ['e', 'E'] else ['p', 'P']
    match exponent? letters rest with
    | none => none
    | some exponent =>
      let signedWhole := Binary64.signed negative whole
      let asFloat (power : Int) : Outcome :=
        if base = 10 then .float (scaled negative value 10 (power - places))
        else .float (scaled negative value 2 (power - 4 * places))
      match pointed, exponent with
      | false, none =>
        if base = 16 then some (.integer (Int64.ofInt signedWhole))
        else if -0x8000000000000000 ≤ signedWhole ∧ signedWhole < 0x8000000000000000 then
          some (.integer (Int64.ofInt signedWhole))
        else some (asFloat 0)
      | _, _ => some (asFloat (exponent.getD 0))

def number? (text : List Char) : Option Outcome :=
  let (negative, rest) := sign (trim text)
  match rest with
  | '0' :: 'x' :: rest => numeral? negative 16 rest
  | '0' :: 'X' :: rest => numeral? negative 16 rest
  | rest => numeral? negative 10 rest

end Reading
end RecordTables
