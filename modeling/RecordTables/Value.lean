import RecordTables.Number.Reading
import RecordTables.Schema.Basic
import RecordTables.Text.Utf8

/-!
Values of Lua.

Tables and records are known by reference, and what they hold is kept in an instance.  A function of
a class carries the table that it works on and the class table it belongs to, so that two functions
are the same exactly when they do the same for the same class.
-/

namespace RecordTables

structure TableRef where
  index : Nat
  deriving DecidableEq, Repr

structure RecordRef where
  index : Nat
  deriving DecidableEq, Repr

/-- What a function of a class does: make a record, make one when the class itself is called, or get
or set the field at an index. -/
inductive Role where
  | create
  | call
  | get (field : Nat)
  | set (field : Nat)
  deriving DecidableEq, Repr

/-- A function: one of a class, the loader of a module, one of the standard library by name, or one
that was given from outside. -/
inductive Function where
  | accessor (owner : TableRef) (table : Table) (role : Role)
  | loader (contents : TableRef)
  | library (name : String)
  | given (id : Nat)
  deriving DecidableEq, Repr

/-- A value.  Strings are bytes; `userData` is a userdata that is no record. -/
inductive Value where
  | nil
  | boolean (b : Bool)
  | integer (i : Int64)
  | float (x : Binary64)
  | string (bytes : List UInt8)
  | table (ref : TableRef)
  | record (ref : RecordRef)
  | light (address : Nat)
  | function (f : Function)
  | thread (id : Nat)
  | userData (id : Nat)
  | error (text : String)
  deriving DecidableEq, Repr

namespace Value

def ofText (text : String) : Value := .string (Text.bytesOf text)

def typeName : Value → String
  | .nil => "nil"
  | .boolean _ => "boolean"
  | .integer _ => "integer"
  | .float _ => "number"
  | .string _ => "string"
  | .table _ => "table"
  | .record _ => "userdata"
  | .light _ => "lightuserdata"
  | .function _ => "function"
  | .thread _ => "thread"
  | .userData _ => "userdata"
  | .error _ => "error"

def isUserData : Value → Bool
  | .record _ => true
  | .userData _ => true
  | _ => false

/-- Whether two values are the same: one thing if they have an identity, and equal otherwise.
Integers and floating point numbers are compared by their value. -/
def same : Value → Value → Bool
  | .integer i, .float x => (Binary64.ofInt i.toInt).numericEq x
  | .float x, .integer i => x.numericEq (Binary64.ofInt i.toInt)
  | .float x, .float y => x.numericEq y
  | .error _, .error _ => false
  | a, b => a = b

def fitsInteger (n : Int) : Bool := -0x8000000000000000 ≤ n ∧ n < 0x8000000000000000

def exactInteger? (x : Binary64) : Option Int64 :=
  (x.toInt?.filter fitsInteger).map Int64.ofInt

/-- The integer that a record takes a floating point number for.  The number must be whole and lie
from the least integer up to the number that the greatest one is rounded to, this one left out. -/
def castInteger? (x : Binary64) : Option Int64 :=
  let low := Binary64.ofInt Int64.minValue.toInt
  let high := Binary64.ofInt Int64.maxValue.toInt
  if x.isWhole && (x.compare? low).any Ordering.isGE && (x.compare? high).any Ordering.isLT then
    some x.toInt64
  else none

structure NoInteger where
  found : String
  note : String
  deriving DecidableEq, Repr

/-- A floating point number as an integer, its fraction dropped. -/
def truncated (found : String) (x : Binary64) : Except NoInteger Int :=
  match x.truncate?.filter fitsInteger with
  | some n => .ok n
  | none => .error ⟨found, "out of range"⟩

/-- A value read as an integer, for which a number drops its fraction and a string may write a
number. -/
def readInteger : Value → Except NoInteger Int
  | .integer i => .ok i.toInt
  | .float x => truncated "number" x
  | .string bytes =>
    match Reading.number? (bytes.map fun b => Char.ofNat b.toNat) with
    | some (.integer i) => .ok i.toInt
    | some (.float x) => truncated "string" x
    | none => .error ⟨"string", "expected number or string coercible to number"⟩
  | v => .error ⟨v.typeName, "expected number or string coercible to number"⟩

end Value
end RecordTables
