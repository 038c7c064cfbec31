import RecordTables.Instance.Metatable

/-!
Calls of functions.

A getter or a setter takes a record first; arguments that are missing are nil, and those beyond the
last that a function takes count for nothing.  Of the functions of the libraries, the two that work
on metatables are here and `require` is left to the modules; all others give nil.
-/

namespace RecordTables
namespace Instance

/-- The instance after the sequences among arguments were measured, each for its field. -/
def measureFor (fields : List Field) (args : List Value) (i : Instance) : Instance :=
  ((fields.zip args).filter (·.1.arity.isSequence)).foldl (fun i given => i.measured given.2) i

/-- A record of a table, made from arguments in field order.  An argument behind the first that is
refused is not looked at. -/
def createRecord (t : Table) (args : List Value) : Action Value := do
  let i ← getThe Instance
  let given := args.map i.content
  Action.change (measureFor (reached i.records.names t t.fields given) args)
  let (records, r) ← Action.ofRefusal (i.records.create t given)
  Action.change ({ · with records := records })
  return .record r

/-- The value of a content; a sequence becomes a new table. -/
def valueOf : Content → Action Value
  | .single v => pure v
  | .sequence items => return .table (← Action.newTable (.grown items))

def getField (t : Table) (index : Nat) (r : RecordRef) : Action Value := do
  valueOf (← Action.ofRefusal ((← getThe Instance).records.getField t index r))

def noteCleared (t : Table) (i : Instance) (field : String) : Instance :=
  i.note .debug s!"{t.name}.{field}: cleared after its selector changed"

/-- Sets the field at an index of a table, and gives the record.  The value is looked at only for a
record that the function may work on. -/
def setField (t : Table) (index : Nat) (r : RecordRef) (v : Value) : Action Value := do
  let i ← getThe Instance
  let _ ← Action.ofRefusal (i.records.receiver t r)
  Action.change (measureFor (t.fields.drop index) [v])
  let (records, cleared) ← Action.ofRefusal (i.records.setField t index r (i.content v))
  Action.change fun i => cleared.foldl (noteCleared t) { i with records := records }
  return .record r

def receiver (args : List Value) : Action RecordRef :=
  match args.headD .nil with
  | .record r => pure r
  | .userData n => do
    Action.refuseDestroyed (.userData n)
    throw .wrongUserData
  | v => throw (.badArgument 1 (.conversion v.typeName "userdata" none))

def useClass (t : Table) (role : Role) (args : List Value) : Action Value :=
  match role with
  | .create => createRecord t args
  | .call =>
    match args.headD .nil with
    | .table _ => createRecord t args.tail
    | v => throw (.badArgument 1 (.conversion v.typeName "table" none))
  | .get index => do getField t index (← receiver args)
  | .set index => do setField t index (← receiver args) (args.tail.headD .nil)

/-- What a function does, `require` apart. -/
def callOwn (f : Function) (args : List Value) : Action Value :=
  match f with
  | .accessor _ t role => useClass t role args
  | .loader contents => pure (.table contents)
  | .library "getmetatable" => getMetatable (args.headD .nil)
  | .library "setmetatable" => setMetatable (args.headD .nil) (args.tail.headD .nil)
  | .library _ => pure .nil
  | .given _ => pure .nil

/-- The function that a call of a value runs, and its arguments: the value itself, or the `__call`
entry of its metatable, which takes the value first. -/
def callee (v : Value) (args : List Value) : Action (Function × List Value) := do
  match v, (← getThe Instance).metaEntry v "__call" with
  | .function f, _ => return (f, args)
  | v, .function f => return (f, v :: args)
  | v, _ => refuseCall v

end Instance
end RecordTables
