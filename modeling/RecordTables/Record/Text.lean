import RecordTables.Number.Decimal
import RecordTables.Record.Store
import RecordTables.Text.Quoted

/-!
Records as text.

A record is written as its table's name and its fields in declaration order, such as `limit_t {
flags = 1, label = "a" }`.  A string is quoted and a sequence shows its length only, so no content
can be taken for the start of another field.
-/

namespace RecordTables

/-- Numbers in records: as few digits as read back, positional, without a point when nothing follows
it. -/
def recordNumbers : Decimal.Layout where
  precision := .shortest .up
  bounds := none
  powerDigits := 1
  point := false
  nan := "NaN"
  infinity := "inf"

def Value.render (names : RecordNames) : Value → String
  | .nil => "nil"
  | .boolean b => if b then "true" else "false"
  | .integer i => toString i.toInt
  | .float x => recordNumbers.text x
  | .string bytes => Text.Quoted.quote (Text.Utf8.lossy bytes)
  | .record r => (names r).getD "userdata"
  | v => v.typeName

def Content.render (names : RecordNames) : Content → String
  | .single v => v.render names
  | .sequence items => s!"<{items.length} values>"

def renderField (names : RecordNames) (values : FieldValues) (f : Field) : String :=
  s!"{f.name} = {(values.get f.name).render names}"

def Record.render (names : RecordNames) (record : Record) : String :=
  let fields := String.intercalate ", " (record.table.fields.map (renderField names record.values))
  s!"{record.table.name} \x7b {fields} \x7d"

def Records.render (rs : Records) (r : RecordRef) : Except Refusal String :=
  match rs.get? r with
  | none => .error .destroyed
  | some record => .ok (record.render rs.names)

end RecordTables
