import RecordTables.Instance.Module

/-!
Access through metatables.

A key that a table lacks is looked up in the `__index` entry of its metatable, which is a function
to call or another value to look in, and set through the `__newindex` entry.  A record has the
members of the class that was registered last under the name of its table, and none can be set.
-/

namespace RecordTables
namespace Instance

def classOf (i : Instance) (name : String) : Except LuaError TableRef :=
  match i.classes.find? (classKey name) with
  | some r => .ok r
  | none => .error (.conversion "nil" "table" none)

/-- The member of a record at a key: the entry of its class. -/
def member (i : Instance) (r : RecordRef) (key : Value) : Except LuaError Value :=
  match i.records.names r with
  | none => .error .destroyedUserData
  | some name => (i.classOf name).map fun c => i.rawGet c key

/-- The number of metatables that a look-up may pass. -/
def chainLimit : Nat := 2000

def indexWithin : (limit : Nat) → Value → Value → Action Value
  | 0, _, _ => throw (.runtime "'__index' chain too long; possible loop")
  | limit + 1, v, key => do
    let i ← getThe Instance
    match v with
    | .record r => i.member r key
    | v =>
      let own := match v with
        | .table r => i.rawGet r key
        | _ => .nil
      if own ≠ .nil then return own
      match v, i.metaEntry v "__index" with
      | .table _, .nil => return .nil
      | v, .nil => refuseIndex v
      | v, .function f => callFunction f [v, key]
      | _, next => indexWithin limit next key

def index (v key : Value) : Action Value := indexWithin chainLimit v key

def call (v : Value) (args : List Value) : Action Value := do
  let (f, args) ← callee v args
  callFunction f args

/-- What the `__eq` entries of two tables say about them: the first one that is there decides. -/
def equalTables (v w : Value) : Action Bool := do
  let i ← getThe Instance
  let entry := if i.metaEntry v "__eq" = .nil then i.metaEntry w "__eq" else i.metaEntry v "__eq"
  match entry with
  | .nil => return false
  | .function f => return isTrue (← callFunction f [v, w])
  | other => throw (.conversion other.typeName "function" none)

/-- Whether two values are equal.  Userdata that was destroyed is equal to itself and cannot be
compared with another. -/
def equal (v w : Value) : Action Bool := do
  if v.same w then return true
  match v, w with
  | .table _, .table _ => equalTables v w
  | v, w => do
    if v.isUserData && w.isUserData then
      Action.refuseDestroyed v
      Action.refuseDestroyed w
    return false

def callEntry (v : Value) (name : String) (args : List Value) : Action Value := do
  match ← index v (.ofText name) with
  | .function f => callFunction f args
  | other =>
    throw (.runtime s!"attempt to call a {other.typeName} value (function '{name}')")

def callMethod (v : Value) (name : String) (args : List Value) : Action Value :=
  callEntry v name (v :: args)

def globalTable (name : String) : Action TableRef := do
  match ← index (.table globals) (.ofText name) with
  | .table r => return r
  | v => throw (.conversion v.typeName "table" none)

def globalFunction (name : String) : Action Function := do
  match ← index (.table globals) (.ofText name) with
  | .function f => return f
  | v => throw (.conversion v.typeName "function" none)

/-- The name under which a program has its globals as a table.  It is no global itself. -/
def environmentName : String := "_ENV"

/-- What a program has under a name: a global, or all of them. -/
def named (name : String) : Action Value :=
  if name = environmentName then return .table globals
  else index (.table globals) (.ofText name)

/-! ## Assignment -/

/-- Sets the value at a key of a table, without regard to its metatable. -/
def assignRaw (r : TableRef) (key value : Value) : Action Unit :=
  match LuaTable.keyFault? key with
  | some fault => throw (.runtime fault)
  | none => Action.change (·.rawSet r key value)

/-- How a value says that its key is to be set: nil if it does not say, as for the keys it has. -/
def setter (i : Instance) (v key : Value) : Value :=
  match v with
  | .table r => if i.rawGet r key = .nil then i.metaEntry v "__newindex" else .nil
  | v => i.metaEntry v "__newindex"

def assignWithin : (limit : Nat) → (v key value : Value) → Action Unit
  | 0, _, _, _ => throw (.runtime "'__newindex' chain too long; possible loop")
  | limit + 1, v, key, value => do
    match v, (← getThe Instance).setter v key with
    | .table r, .nil => assignRaw r key value
    | v, .nil => refuseIndex v
    | v, .function f => let _ ← callFunction f [v, key, value]
    | _, next => assignWithin limit next key value

/-- Sets the value at a key of a value.  A key that a table lacks is set through the `__newindex`
entry of its metatable, which is a function to call or another value to set it in. -/
def assign (v key value : Value) : Action Unit := assignWithin chainLimit v key value

/-- Sets what a program has under a name.  All globals together stay what they are. -/
def assignNamed (name : String) (value : Value) : Action Unit :=
  if name = environmentName then pure () else assign (.table globals) (.ofText name) value

def textOf : Value → Action String
  | .record r => do Action.ofRefusal ((← getThe Instance).records.render r)
  | v => do
    Action.refuseDestroyed v
    return v.typeName

end Instance
end RecordTables
