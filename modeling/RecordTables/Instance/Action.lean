import RecordTables.Instance.Basic
import RecordTables.Record.Text

/-!
Actions on an instance.

An action ends with a value or with a failure, and leaves an instance behind in either case: what
was changed before a failure stays changed.
-/

namespace RecordTables

abbrev Action (α : Type) : Type := ExceptT LuaError (StateM Instance) α

namespace Action

def ask {α : Type} (f : Instance → α) : Action α := do return f (← getThe Instance)

def change (f : Instance → Instance) : Action Unit := modifyThe Instance f

def newTable (t : LuaTable) : Action TableRef := do
  let (i, r) := (← getThe Instance).newTable t
  set i
  return r

def ofRefusal {α : Type} : Except Refusal α → Action α
  | .ok a => pure a
  | .error refusal => throw refusal.toLuaError

def refuseDestroyed (v : Value) : Action Unit := do
  if (← getThe Instance).isDestroyed v then throw .destroyedUserData

end Action
end RecordTables
