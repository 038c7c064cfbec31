import RecordTables.Schema.Basic

/-!
The type of a field in words, such as `table of uint8 (length in size)`.
-/

namespace RecordTables

/-- A single value in words.  A table stands for its records, and a scalar that is called like its
representation is named once. -/
def describeSingle (luaType : LuaType) : ValueType → String
  | .table name => name
  | .scalar s =>
    if s.name = luaType.name then luaType.name else s!"{luaType.name} ({s.name})"
  | .foreign name => s!"{luaType.name} ({name})"

def Table.fieldName (t : Table) (index : Nat) : String :=
  match t.fields[index]? with
  | some f => f.name
  | none => ""

def Case.describe (c : Case) : String := s!"{c.selector} => {describeSingle c.luaType c.type}"

/-- The type of a field of a table in words.  A field with neither condition nor type is described
by its representation. -/
def Field.describe (t : Table) (f : Field) : String :=
  match f.condition, f.type with
  | some condition, _ =>
    let cases := String.intercalate ", " (condition.cases.map Case.describe)
    s!"by {t.fieldName condition.field} ({cases})"
  | none, none => f.luaType.name
  | none, some type =>
    match f.arity with
    | .one => describeSingle f.luaType type
    | .fixed n => s!"table of {n} {type.describe}"
    | .counted index => s!"table of {type.describe} (length in {t.fieldName index})"
    | .unbounded => s!"table of {type.describe}"

end RecordTables
