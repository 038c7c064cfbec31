import RecordTables.Json.Fault
import RecordTables.Number.Binary64

/-!
Numbers in a JSON text.

`Literal.read` takes a number off the front of a text and keeps its digits.  `Literal.value?` says
what it stands for: an integer if it has neither fraction nor exponent and fits 64 bits, and a
floating point number otherwise.  A floating point number is found by scaling: the digits that fit
an unsigned 64-bit integer are rounded to a number, and this is multiplied or divided by a rounded
power of ten, so the last bit may differ from that of the nearest number.
-/

namespace RecordTables
namespace Json

/-- The number that a literal stands for.  A natural number is below `2 ^ 64`; `negative n` is `-n`
with `n` from one to `2 ^ 63`. -/
inductive Numeral where
  | natural (n : Nat)
  | negative (n : Nat)
  | float (x : Binary64)
  deriving DecidableEq, Repr

structure Exponent where
  negative : Bool
  digits : List Char
  deriving DecidableEq, Repr

structure Literal where
  negative : Bool
  whole : List Char
  fraction : Option (List Char)
  exponent : Option Exponent
  deriving DecidableEq, Repr

namespace Literal

def digitValue (c : Char) : Nat := c.toNat - '0'.toNat

def natural (digits : List Char) : Nat := digits.foldl (fun n c => 10 * n + digitValue c) 0

/-- Appends digits to a significand for as long as it stays below `2 ^ 64`; also the number of
digits appended. -/
def absorb (significand : Nat) : List Char → Nat × Nat
  | [] => (significand, 0)
  | c :: digits =>
    let next := 10 * significand + digitValue c
    if next < 0x10000000000000000 then
      let (s, n) := absorb next digits
      (s, n + 1)
    else (significand, 0)

def product (x y : Binary64) : Binary64 :=
  match x.ratio?, y.ratio? with
  | some (a, b), some (c, d) => .ofRatio false (a * c) (b * d)
  | _, _ => ⟨UInt64.ofNat Binary64.infinityBits⟩

def quotient (x y : Binary64) : Binary64 :=
  match x.ratio?, y.ratio? with
  | some (a, b), some (c, d) => .ofRatio false (a * d) (b * c)
  | _, _ => x

/-- A number scaled by a power of ten.  The powers within reach are those up to `10 ^ 308`; a
smaller number is divided by that power as often as it takes. -/
def scale (x : Binary64) (exponent : Int) : Except Fault Binary64 :=
  if 308 < exponent then
    if x = .zero then .ok x else .error .numberOutOfRange
  else if 0 ≤ exponent then
    let y := product x (.ofInt (Nat.pow 10 exponent.toNat))
    if y.bits.toNat = Binary64.infinityBits then .error .numberOutOfRange else .ok y
  else if -308 ≤ exponent then .ok (quotient x (.ofInt (Nat.pow 10 (-exponent).toNat)))
  else if x = .zero then .ok x
  else scale (quotient x (.ofInt (Nat.pow 10 308))) (exponent + 308)
termination_by exponent.natAbs
decreasing_by omega

def signed (negative : Bool) (x : Binary64) : Binary64 := if negative then x.neg else x

def exponentLimit : Nat := 0x7fffffff

def float? (l : Literal) : Except Fault Binary64 :=
  let (s, taken) := absorb 0 l.whole
  let (s, places) := absorb s (l.fraction.getD [])
  let shift : Int := (l.whole.length - taken : Nat) - (places : Int)
  match l.exponent with
  | none => (scale (.ofInt s) shift).map (signed l.negative)
  | some e =>
    let size := natural e.digits
    if exponentLimit < size then
      if s ≠ 0 ∧ !e.negative then .error .numberOutOfRange else .ok (signed l.negative .zero)
    else
      (scale (.ofInt s) (shift + if e.negative then -(size : Int) else size)).map
        (signed l.negative)

/-- The number that a literal stands for.  Minus zero and the integers that do not fit 64 bits are
floating point numbers. -/
def value? (l : Literal) : Except Fault Numeral :=
  let n := natural l.whole
  if l.fraction.isSome ∨ l.exponent.isSome ∨ 0x10000000000000000 ≤ n then l.float?.map .float
  else if !l.negative then .ok (.natural n)
  else if 1 ≤ n ∧ n ≤ 0x8000000000000000 then .ok (.negative n)
  else .ok (.float (Binary64.ofInt n).neg)

def missingDigit : List Char → Fault
  | [] => .endInValue
  | _ => .invalidNumber

/-- The digits at the front of a text, of which there has to be one, and the text after them. -/
def readDigits (text : List Char) : Except Fault (List Char × List Char) :=
  match text.takeWhile Char.isDigit with
  | [] => .error (missingDigit text)
  | digits => .ok (digits, text.dropWhile Char.isDigit)

/-- The integer part: a zero stands alone. -/
def readWhole : List Char → Except Fault (List Char × List Char)
  | '0' :: rest =>
    match rest with
    | [] => .ok (['0'], [])
    | c :: more => if c.isDigit then .error .invalidNumber else .ok (['0'], c :: more)
  | text => readDigits text

def readFraction : List Char → Except Fault (Option (List Char) × List Char)
  | '.' :: rest => do
    let (digits, rest) ← readDigits rest
    return (some digits, rest)
  | text => return (none, text)

def readSign : List Char → Bool × List Char
  | '+' :: rest => (false, rest)
  | '-' :: rest => (true, rest)
  | text => (false, text)

def readExponent : List Char → Except Fault (Option Exponent × List Char)
  | [] => return (none, [])
  | c :: rest =>
    if c = 'e' ∨ c = 'E' then do
      let (negative, rest) := readSign rest
      let (digits, rest) ← readDigits rest
      return (some ⟨negative, digits⟩, rest)
    else return (none, c :: rest)

def read (text : List Char) : Except Fault (Literal × List Char) := do
  let (negative, rest) := match text with
    | '-' :: rest => (true, rest)
    | _ => (false, text)
  let (whole, rest) ← readWhole rest
  let (fraction, rest) ← readFraction rest
  let (exponent, rest) ← readExponent rest
  return (⟨negative, whole, fraction, exponent⟩, rest)

theorem length_dropWhile_le (p : Char → Bool) (text : List Char) :
    (text.dropWhile p).length ≤ text.length :=
  (List.dropWhile_sublist p).length_le

theorem length_readDigits {text digits rest : List Char}
    (h : readDigits text = .ok (digits, rest)) :
    rest.length < text.length := by
  unfold readDigits at h
  split at h
  · cases h
  · next hne =>
    cases h
    cases text with
    | nil => simp at hne
    | cons c cs =>
      by_cases hc : c.isDigit
      · rw [List.dropWhile_cons_of_pos hc]
        exact Nat.lt_succ_of_le (length_dropWhile_le _ _)
      · simp [hc] at hne

theorem length_readWhole {text whole rest : List Char} (h : readWhole text = .ok (whole, rest)) :
    rest.length < text.length := by
  unfold readWhole at h
  split at h
  · split at h
    · cases h; simp
    · split at h
      · cases h
      · cases h; simp
  · exact length_readDigits h

theorem length_readFraction {text rest : List Char} {fraction : Option (List Char)}
    (h : readFraction text = .ok (fraction, rest)) : rest.length ≤ text.length := by
  unfold readFraction at h
  split at h
  · next body =>
    cases hd : readDigits body with
    | error e => rw [hd] at h; cases h
    | ok r =>
      rw [hd] at h
      cases h
      exact Nat.le_succ_of_le (Nat.le_of_lt (length_readDigits hd))
  · cases h; exact Nat.le_refl _

theorem length_readSign (text : List Char) : (readSign text).2.length ≤ text.length := by
  unfold readSign
  split <;> simp

theorem length_readExponent {text rest : List Char} {exponent : Option Exponent}
    (h : readExponent text = .ok (exponent, rest)) : rest.length ≤ text.length := by
  unfold readExponent at h
  split at h
  · cases h; exact Nat.le_refl _
  · next c body =>
    split at h
    · cases hd : readDigits (readSign body).2 with
      | error e => simp only [hd] at h; cases h
      | ok r =>
        simp only [hd] at h
        cases h
        exact Nat.le_succ_of_le
          (Nat.le_trans (Nat.le_of_lt (length_readDigits hd)) (length_readSign body))
    · cases h; exact Nat.le_refl _

theorem length_read {text rest : List Char} {l : Literal} (h : read text = .ok (l, rest)) :
    rest.length < text.length := by
  have key : ∀ (negative : Bool) (body : List Char), body.length ≤ text.length →
      (do
        let (whole, rest) ← readWhole body
        let (fraction, rest) ← readFraction rest
        let (exponent, rest) ← readExponent rest
        return ((⟨negative, whole, fraction, exponent⟩ : Literal), rest) :
          Except Fault (Literal × List Char)) = .ok (l, rest) → rest.length < text.length := by
    intro negative body hle h
    cases hw : readWhole body with
    | error e => rw [hw] at h; cases h
    | ok w =>
      obtain ⟨whole, r1⟩ := w
      cases hf : readFraction r1 with
      | error e => simp only [hw, hf, bind, Except.bind] at h; cases h
      | ok f =>
        obtain ⟨fraction, r2⟩ := f
        cases he : readExponent r2 with
        | error e => simp only [hw, hf, he, bind, Except.bind] at h; cases h
        | ok e =>
          obtain ⟨exponent, r3⟩ := e
          simp only [hw, hf, he, bind, Except.bind] at h
          cases h
          have h1 := length_readWhole hw
          have h2 := length_readFraction hf
          have h3 := length_readExponent he
          omega
  unfold read at h
  split at h
  exact key _ _ (by rename_i heq; revert heq; split <;> intro heq <;> cases heq <;> simp) h

end Literal
end Json
end RecordTables
