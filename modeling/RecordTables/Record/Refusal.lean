import RecordTables.Failure
import RecordTables.Value

/-!
Why a record function refuses its arguments.

A refusal names the place, which is a field of a table or an item of such a field, and what is wrong
there.  A table set whose references hold never causes the refusals for a field that has no type, no
condition or no place in its table, for a case or an item of a type that it cannot have, or for a
count that is no integer; they complete the functions.
-/

namespace RecordTables

/-- A field of a table, or an item of its sequence, counted from one. -/
structure Place where
  table : String
  field : String
  item : Option Nat
  deriving DecidableEq, Repr

def Place.text : Place → String
  | ⟨table, field, none⟩ => s!"{table}.{field}"
  | ⟨table, field, some i⟩ => s!"{table}.{field}[{i}]"

def Table.place (t : Table) (f : Field) : Place := ⟨t.name, f.name, none⟩

def Place.at (p : Place) (item : Nat) : Place := { p with item := some item }

inductive Refusal where
  /-- A value of another type, or a record of another table. -/
  | wrongType (place : Place) (expected found : String)
  /-- An integer beyond the bounds of a type. -/
  | outOfRange (place : Place) (n : Int) (type : String)
  /-- Nothing, for a field that always holds something. -/
  | nilValue (place : Place)
  /-- A sequence that is not as long as its field requires. -/
  | wrongLength (place : Place) (expected found : Nat)
  /-- A sequence that is not as long as its count says. -/
  | countMismatch (place : Place) (counter : String) (count : Int) (found : Nat)
  /-- A selector value that chooses no case. -/
  | noCase (place : Place) (selector : String) (value : Int)
  /-- A selector that holds nothing. -/
  | selectorUnset (place : Place) (selector : String)
  /-- A field without a declared type. -/
  | untyped (place : Place)
  /-- A conditional field without a condition. -/
  | unconditioned (place : Place)
  /-- A case that is conditional itself. -/
  | nestedConditional (place : Place)
  /-- An item of a type that is known by its name only. -/
  | foreignItem (place : Place) (type found : String)
  /-- A value for a field of records whose type refers to no table. -/
  | noReference (place : Place) (type found : String)
  /-- A count or a selector that holds no integer. -/
  | noInteger (reason : Value.NoInteger)
  /-- A reference beyond the fields of a table. -/
  | noField (table : String) (index : Nat)
  /-- A record of another table than the function's. -/
  | wrongRecord (table : String)
  /-- A record that is no more. -/
  | destroyed
  deriving DecidableEq, Repr

def Refusal.toLuaError : Refusal → LuaError
  | .wrongType place expected found => .runtime s!"{place.text}: expected {expected}, got {found}"
  | .outOfRange place n type => .runtime s!"{place.text}: {n} is out of range for {type}"
  | .nilValue place => .runtime s!"{place.text}: value cannot be nil"
  | .wrongLength place expected found =>
    .runtime s!"{place.text}: expected {expected} values, got {found}"
  | .countMismatch place counter count found =>
    .runtime s!"{place.text}: `{counter}` is {count} but {found} values were given"
  | .noCase place selector value => .runtime s!"{place.text}: no case for {selector} = {value}"
  | .selectorUnset place selector => .runtime s!"{place.text}: `{selector}` must be set first"
  | .untyped place => .runtime s!"{place.text}: field has no declared type"
  | .unconditioned place => .runtime s!"{place.text}: field has no condition"
  | .nestedConditional place =>
    .runtime s!"{place.text}: nested conditional values are not supported"
  | .foreignItem place type found => .runtime s!"{place.text}: expected {type}, got {found}"
  | .noReference place type found => .runtime s!"{place.text}: expected {type}, got {found}"
  | .noInteger reason => .conversion reason.found "i64" (some reason.note)
  | .noField table index => .runtime s!"{table} has no field at index {index}"
  | .wrongRecord table => .runtime s!"expected a {table} record"
  | .destroyed => .destroyedUserData

end RecordTables
