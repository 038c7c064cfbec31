import RecordTables.Record.Construct
import RecordTables.Record.Update

/-!
The records of an instance.

A record belongs to the table it was made for and holds contents by field name.  A function of a
class works on every record whose table has the name of the function's own; it changes the contents
of that record and nothing else.  Records are numbered in the order in which they were made, and the
number of a destroyed record is not used again.
-/

namespace RecordTables

structure Record where
  table : Table
  values : FieldValues
  deriving DecidableEq, Repr

/-- The records made so far; a destroyed one leaves a gap. -/
structure Records where
  slots : Array (Option Record)

namespace Records

def empty : Records := ⟨#[]⟩

def get? (rs : Records) (r : RecordRef) : Option Record := rs.slots[r.index]?.join

def names (rs : Records) : RecordNames := fun r => (rs.get? r).map (·.table.name)

def push (rs : Records) (record : Record) : Records × RecordRef :=
  (⟨rs.slots.push (some record)⟩, ⟨rs.slots.size⟩)

def put (rs : Records) (r : RecordRef) (record : Record) : Records :=
  ⟨rs.slots.setIfInBounds r.index (some record)⟩

def destroy (rs : Records) (r : RecordRef) : Records :=
  ⟨rs.slots.setIfInBounds r.index none⟩

theorem index_lt_of_get? {rs : Records} {r : RecordRef} {record : Record}
    (h : rs.get? r = some record) : r.index < rs.slots.size := by
  apply Decidable.byContradiction
  intro hr
  simp [get?, Array.getElem?_eq_none (Nat.le_of_not_lt hr)] at h

@[simp] theorem get?_push_self (rs : Records) (record : Record) :
    (rs.push record).1.get? (rs.push record).2 = some record := by
  simp [get?, push]

theorem get?_push_of_ne (rs : Records) {r : RecordRef} (record : Record)
    (h : r ≠ (rs.push record).2) : (rs.push record).1.get? r = rs.get? r := by
  have hr : r.index ≠ rs.slots.size := fun e => h (by cases r; simp_all [push])
  simp [get?, push, Array.getElem?_push, hr]

theorem get?_put_self {rs : Records} {r : RecordRef} (record : Record)
    (h : r.index < rs.slots.size) : (rs.put r record).get? r = some record := by
  simp [get?, put, h]

theorem get?_put_of_ne (rs : Records) {r other : RecordRef} (record : Record) (h : other ≠ r) :
    (rs.put r record).get? other = rs.get? other := by
  have hr : r.index ≠ other.index := fun e => h (by cases r; cases other; simp_all)
  simp [get?, put, Array.getElem?_setIfInBounds_ne hr]

def create (rs : Records) (t : Table) (args : List Content) :
    Except Refusal (Records × RecordRef) :=
  (construct rs.names t args).map fun values => rs.push ⟨t, values⟩

def receiver (rs : Records) (t : Table) (r : RecordRef) : Except Refusal Record :=
  match rs.get? r with
  | none => .error .destroyed
  | some record =>
    if record.table.name = t.name then .ok record else .error (.wrongRecord t.name)

def getField (rs : Records) (t : Table) (index : Nat) (r : RecordRef) : Except Refusal Content := do
  let record ← rs.receiver t r
  RecordTables.getField t index record.values

/-- Sets the field of a record at an index of a table; also the fields that lost their value. -/
def setField (rs : Records) (t : Table) (index : Nat) (r : RecordRef) (c : Content) :
    Except Refusal (Records × List String) := do
  let record ← rs.receiver t r
  let update ← RecordTables.setField rs.names t index record.values c
  return (rs.put r { record with values := update.values }, update.cleared)

end Records
end RecordTables
