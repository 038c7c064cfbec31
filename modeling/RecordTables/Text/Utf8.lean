/-!
UTF-8, read one byte at a time.

`pieces` cuts a byte list into characters and into the maximal parts that no character starts with,
and every other reading here is taken from it: `lossy` puts U+FFFD for each ill-formed part,
`isWellFormed` asks that there is none, and `fault?` tells where the first one stands and what the
matter is.  The state between two bytes is what the character begun so far still needs, so the
recursion is on the bytes themselves.
-/

namespace RecordTables
namespace Text

def bytesOf (text : String) : List UInt8 := text.toUTF8.data.toList

namespace Utf8

/-- A character that has begun: the bytes it still needs, the range of the next one, the code
point read so far, and the number of bytes read. -/
structure Pending where
  needed : Nat
  low : UInt8
  high : UInt8
  code : Nat
  taken : Nat

/-- The character that a first byte begins, if it begins one of several bytes.  The range of the
second byte leaves out the long forms, the surrogates, and all above U+10FFFF. -/
def Pending.ofLead? (b : UInt8) : Option Pending :=
  if b < 0xC2 then none
  else if b < 0xE0 then some ⟨1, 0x80, 0xBF, b.toNat - 0xC0, 1⟩
  else if b = 0xE0 then some ⟨2, 0xA0, 0xBF, 0, 1⟩
  else if b = 0xED then some ⟨2, 0x80, 0x9F, 0xD, 1⟩
  else if b < 0xF0 then some ⟨2, 0x80, 0xBF, b.toNat - 0xE0, 1⟩
  else if b = 0xF0 then some ⟨3, 0x90, 0xBF, 0, 1⟩
  else if b < 0xF4 then some ⟨3, 0x80, 0xBF, b.toNat - 0xF0, 1⟩
  else if b = 0xF4 then some ⟨3, 0x80, 0x8F, 4, 1⟩
  else none

def Pending.add (p : Pending) (b : UInt8) : Pending :=
  ⟨p.needed - 1, 0x80, 0xBF, p.code * 64 + (b.toNat - 0x80), p.taken + 1⟩

/-- A part of a byte list: a character, bytes that begin none, or a character that the end of the
list cuts off. -/
inductive Piece where
  | char (c : Char)
  | illFormed (length : Nat)
  | cutOff (length : Nat)
  deriving DecidableEq, Repr

/-- What a byte at the start of a piece does: it is a piece by itself, or begins one. -/
def start (b : UInt8) : Piece ⊕ Pending :=
  if b < 0x80 then .inl (.char (Char.ofNat b.toNat))
  else match Pending.ofLead? b with
    | some p => .inr p
    | none => .inl (.illFormed 1)

/-- The pieces of a byte list that follows a character begun as `pending` says. -/
def piecesFrom : Option Pending → List UInt8 → List Piece
  | none, [] => []
  | some p, [] => [.cutOff p.taken]
  | none, b :: bytes =>
    match start b with
    | .inl piece => piece :: piecesFrom none bytes
    | .inr p => piecesFrom (some p) bytes
  | some p, b :: bytes =>
    if p.low ≤ b ∧ b ≤ p.high then
      if p.needed = 1 then .char (Char.ofNat (p.add b).code) :: piecesFrom none bytes
      else piecesFrom (some (p.add b)) bytes
    else
      .illFormed p.taken :: match start b with
        | .inl piece => piece :: piecesFrom none bytes
        | .inr q => piecesFrom (some q) bytes

def pieces (bytes : List UInt8) : List Piece := piecesFrom none bytes

def Piece.shown : Piece → Char
  | .char c => c
  | _ => '\uFFFD'

/-- The text of a byte list, with U+FFFD for each part that is no character. -/
def lossy (bytes : List UInt8) : List Char := (pieces bytes).map Piece.shown

def Piece.isChar : Piece → Bool
  | .char _ => true
  | _ => false

def isWellFormed (bytes : List UInt8) : Bool := (pieces bytes).all Piece.isChar

/-- Why a byte list is no UTF-8: a part that no character starts with, or a character cut off at
the end.  Both come with the index of their first byte. -/
inductive Fault where
  | invalid (length : Nat) (index : Nat)
  | incomplete (index : Nat)
  deriving DecidableEq, Repr

/-- The first fault among pieces of which the first starts at byte `index`. -/
def faultFrom? (index : Nat) : List Piece → Option Fault
  | [] => none
  | .char c :: rest => faultFrom? (index + c.utf8Size) rest
  | .illFormed n :: _ => some (.invalid n index)
  | .cutOff _ :: _ => some (.incomplete index)

def fault? (bytes : List UInt8) : Option Fault := faultFrom? 0 (pieces bytes)

def Fault.message : Fault → String
  | .invalid length index => s!"invalid utf-8 sequence of {length} bytes from index {index}"
  | .incomplete index => s!"incomplete utf-8 byte sequence from index {index}"

def decode? (bytes : List UInt8) : Option String :=
  if isWellFormed bytes then some (String.ofList (lossy bytes)) else none

/-- A surrogate is three ill-formed parts, and a two-byte character may be cut off. -/
example : pieces [0x41, 0xED, 0xA0, 0x80, 0xC3] =
    [.char 'A', .illFormed 1, .illFormed 1, .illFormed 1, .cutOff 1] := by decide

/-- A part is as long as some character could go on. -/
example : pieces [0xF0, 0x9F, 0x98, 0x41] = [.illFormed 3, .char 'A'] := by decide

end Utf8
end Text
end RecordTables
