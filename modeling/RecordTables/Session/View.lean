import RecordTables.Session.Term

/-!
Views: values as a session shows them.

A table is shown as its items, for which its length is asked.  A record is shown by the name of its
table, and down to a given depth also by what its getters give, a failure standing where a getter
failed.
-/

namespace RecordTables

inductive View where
  | plain (v : Value)
  | items (vs : List View)
  | record (table : String)
  | dump (table : String) (fields : List (String × View))
  | failed (error : LuaError)
  | function
  | thread
  | userData

namespace View

def ofSimple (i : Instance) : Value → View
  | .record r => ((i.records.names r).map View.record).getD .userData
  | .function _ => .function
  | .thread _ => .thread
  | .userData _ => .userData
  | v => .plain v

/-- What is shown of a value with the fields of its records, for at most `depth` records and
`levels` tables inside one another. -/
def dumpWithin (depth levels : Nat) (v : Value) : Action View := do
  match depth, levels, v with
  | depth, levels + 1, .table r =>
    let items := ((← getThe Instance).table r).toList
    Action.change (·.measured v)
    return .items (← items.mapM (dumpWithin depth levels))
  | _, 0, .table _ => return .items []
  | depth + 1, _, .record r =>
    let i ← getThe Instance
    match i.records.get? r with
    | none => return .userData
    | some found =>
      let fields ← found.table.fields.mapM fun f => do
        let shown ← try
            let v ← Instance.callMethod (.record r) f.name []
            dumpWithin depth (← getThe Instance).tables.size v
          catch e => pure (.failed e)
        return (f.name, shown)
      return .dump found.table.name fields
  | _, _, v => return ofSimple (← getThe Instance) v
termination_by (depth, levels)

def dumpValue (depth : Nat) (v : Value) : Action View := do
  dumpWithin depth (← getThe Instance).tables.size v

def ofValue (v : Value) : Action View := dumpValue 0 v

end View
end RecordTables
