import RecordTables.Instance.Action

/-!
Metatables.

Tables can be given a metatable, and all strings share one.  Records and other userdata keep theirs
to themselves until they are destroyed: from then on they have the one metatable of all that was
destroyed.
-/

namespace RecordTables
namespace Instance

/-- The metatable of a value, as far as it can be had. -/
def metatable? (i : Instance) (v : Value) : Option TableRef :=
  match v with
  | .table r => (i.table r).metatable
  | .string _ => i.strings
  | v => if i.isDestroyed v then some remains else none

def metaEntry (i : Instance) (v : Value) (name : String) : Value :=
  ((i.metatable? v).map fun r => i.rawGet r (.ofText name)).getD .nil

/-- The name of a type in the language itself, where the two kinds of numbers are one type, and all
kinds of userdata, errors among them, are another. -/
def plainTypeName : Value → String
  | .integer _ => "number"
  | .light _ | .error _ => "userdata"
  | v => v.typeName

/-- A string up to its first zero byte, which is all of it that messages show. -/
def cutAtZero (bytes : List UInt8) : List UInt8 := bytes.takeWhile (· ≠ 0)

/-- The name that messages have for what a value is: the `__name` in the metatable of a table or a
userdata, and that of its type otherwise. -/
def kindName (i : Instance) (v : Value) : String :=
  match v, i.metaEntry v "__name" with
  | .string _, _ => "string"
  | _, .string name => String.ofList (Text.Utf8.lossy (cutAtZero name))
  | .record r, _ => if (i.records.get? r).isSome then "Record" else "userdata"
  | v, _ => plainTypeName v

def refuseIndex {α : Type} (v : Value) : Action α := do
  Action.refuseDestroyed v
  throw (.runtime s!"attempt to index a {(← getThe Instance).kindName v} value")

def refuseCall {α : Type} (v : Value) : Action α := do
  throw (.runtime s!"attempt to call a {(← getThe Instance).kindName v} value")

/-- What `getmetatable` gives.  The metatable of a userdata is hidden behind `false`, and one with a
`__metatable` entry behind that entry. -/
def getMetatable (v : Value) : Action Value := do
  let i ← getThe Instance
  match v, i.metatable? v with
  | .record _, none | .userData _, none | .error _, _ => return .boolean false
  | _, none => return .nil
  | v, some r =>
    match i.metaEntry v "__metatable" with
    | .nil => return .table r
    | shown => return shown

def metatableFault (i : Instance) (position : Nat) (expected : String) (found : Value) :
    LuaError :=
  let name := match found with
    | .light _ => "light userdata"
    | v => i.kindName v
  .runtime s!"bad argument #{position} to 'setmetatable' ({expected} expected, got {name})"

/-- What `setmetatable` does with a value and a new metatable, and nil for none. -/
def setMetatable (v metatable : Value) : Action Value := do
  let i ← getThe Instance
  match v with
  | .table r =>
    let next ← match metatable with
      | .table m => pure (some m)
      | .nil => pure none
      | other => throw (i.metatableFault 2 "nil or table" other)
    if i.metaEntry v "__metatable" ≠ .nil then
      throw (.runtime "cannot change a protected metatable")
    Action.change fun i => i.setTable r { i.table r with metatable := next }
    return v
  | v => throw (i.metatableFault 1 "table" v)

end Instance
end RecordTables
