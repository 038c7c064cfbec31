import RecordTables.Session.View

/-!
Steps of a session.

A step does one thing with the instance of a session, and answers it.  A step that fails does not
end the session, though a failed registration ends the life of the instance.  What a step answers as
a value can be kept in a variable.
-/

namespace RecordTables

/-- A step.  `table` is the name of a global class. -/
inductive Step where
  /-- Puts a table set into the instance. -/
  | inject (set : Nat) (module : Option String)
  /-- Registers a table set, after which the instance is ready. -/
  | register (set : Nat) (module : Option String)
  /-- Releases the instance. -/
  | release
  /-- Makes a record by the constructor of a class. -/
  | new (table : String) (args : List Term)
  /-- Calls a class. -/
  | call (table : String) (args : List Term)
  /-- Calls a function of a class. -/
  | callFunction (table key : String) (args : List Term)
  /-- Calls a method of a record. -/
  | method (receiver : Term) (key : String) (args : List Term)
  /-- Takes a member of a record. -/
  | index (receiver key : Term)
  /-- Tries to set a member of a record. -/
  | assign (receiver key value : Term)
  /-- The text of a record. -/
  | text (receiver : Term)
  /-- A value with the fields of its records. -/
  | dump (t : Term) (depth : Nat)
  /-- Compares two values. -/
  | same (a b : Term)
  /-- A value by itself. -/
  | value (t : Term)
  /-- Sets an entry of a table. -/
  | setEntry (t key value : Term)
  /-- The keys of a class, with the types of what is there. -/
  | classKeys (table : String)
  /-- Sets an entry of a class. -/
  | setClassEntry (table : String) (key value : Term)
  | getMetatable (t : Term)
  | setMetatable (t : Term)
  /-- Sets a global. -/
  | setGlobal (key value : Term)
  /-- Gives the globals a metatable with that `__index`. -/
  | setGlobalsIndex (t : Term)
  | globalNames
  | globalType (name : String)
  /-- Runs the assignment of nil to a global. -/
  | unset (name : String)
  /-- Runs the expression for the type of a global. -/
  | evalType (name : String)
  /-- Loads a module, and compares its classes with the globals. -/
  | require (name : String)
  /-- Destroys a record. -/
  | destroy (receiver : Term)

inductive Reply where
  | done
  | value (v : Value)
  | shown (v : View)
  | flag (b : Bool)
  | text (s : String)
  | names (ss : List String)
  /-- For each table name that a module has, whether the module and the globals agree on it. -/
  | module (members : List (String × Bool))
  /-- The type of a module that is no table. -/
  | noTable (typeName : String)

namespace Session

def start (bytesInUse : Instance → Nat) (sets : List TableSet) (c : Configuration) :
    Except BootstrapError Session :=
  let host := Host.ofConfiguration bytesInUse c
  match host.create with
  | .error e => .error e
  | .ok i =>
    let life := Life.ofInstance bytesInUse i
    match life.advance .loaded (host.load i) with
    | (.error e, _) => .error e
    | (.ok (), life) => .ok ⟨sets, life, .empty⟩

def provision (n : Nat) (module : Option String) : StepAction Provision := do
  return ⟨(← getThe Session).sets.getD n ⟨[]⟩, module⟩

def execute {α : Type} (action : Action α) : StepAction α :=
  operate .lua fun life => life.execute action

def requireAlive : StepAction Unit := do
  if (← getThe Session).life.phase = .released then throw (.misuse .released)

/-- For each of names that a table has, whether the table and the globals agree on it. -/
def agreement (i : Instance) (r : TableRef) (names : List String) : List (String × Bool) :=
  names.eraseDups.filterMap fun name =>
    match i.rawGet r (.ofText name) with
    | .nil => none
    | v => some (name, v.same (i.global name))

/-- Destroys a userdata; one that is no more is refused. -/
def destroyUserData (v : Value) : Action Unit := do
  Action.refuseDestroyed v
  match v with
  | .record r => Action.change fun i => { i with records := i.records.destroy r }
  | .userData n => Action.change fun i => { i with destroyed := n :: i.destroyed }
  | _ => return ()

def asTable : Value → StepAction TableRef
  | .table r => return r
  | v => throw (.lua (.conversion v.typeName "table" none))

def callClass (table key : String) (args : List Term) : StepAction Reply := do
  let r ← perform (Instance.globalTable table)
  let vs ← evalAll args
  return .value (← perform (Instance.callEntry (.table r) key vs))

def callGlobal (name : String) (args : List Value) : StepAction Value :=
  perform do Instance.callFunction (← Instance.globalFunction name) args

/-- Does a step that belongs to every phase but the last. -/
def stepAlive : Step → StepAction Reply
  | .inject n module => do
    let p ← provision n module
    operate .registration fun life => life.inject p.provider.inject
    return .names p.set.names
  | .register n module => do
    let p ← provision n module
    operate (fun e => .bootstrap (.registration e)) fun life => life.register p.provider.inject
    return .names p.set.names
  | .release => do
    modifyThe Session fun s => { s with life := s.life.release, bound := .empty }
    return .done
  | .new table args => callClass table "new" args
  | .call table args => do
    let r ← perform (Instance.globalTable table)
    let vs ← evalAll args
    return .value (← perform (Instance.call (.table r) vs))
  | .callFunction table key args => callClass table key args
  | .method receiver key args => do
    let r ← evalReceiver receiver
    let vs ← evalAll args
    return .value (← perform (Instance.callMethod r key vs))
  | .index receiver key => do
    let r ← evalReceiver receiver
    let k ← eval key
    return .value (← perform (Instance.index r k))
  | .assign receiver key value => do
    let r ← evalReceiver receiver
    let k ← eval key
    let v ← eval value
    perform (Instance.assign r k v)
    return .done
  | .text receiver => do
    return .text (← perform (Instance.textOf (← evalReceiver receiver)))
  | .dump t depth => do
    return .shown (← perform (View.dumpValue depth (← eval t)))
  | .same a b => do
    let v ← eval a
    let w ← eval b
    return .flag (← perform (Instance.equal v w))
  | .value t => return .value (← eval t)
  | .setEntry t key value => do
    let r ← asTable (← eval t)
    let k ← eval key
    let v ← eval value
    perform (Instance.assignRaw r k v)
    return .done
  | .classKeys table => do
    let r ← perform (Instance.globalTable table)
    return .names (← perform do (← getThe Instance).entryTypes r)
  | .setClassEntry table key value => do
    let r ← perform (Instance.globalTable table)
    let k ← eval key
    let v ← eval value
    perform (Instance.assign (.table r) k v)
    return .done
  | .getMetatable t => do
    let v ← eval t
    return .value (← callGlobal "getmetatable" [v])
  | .setMetatable t => do
    let v ← eval t
    let metatable ← perform (Action.newTable .empty)
    let _ ← callGlobal "setmetatable" [v, .table metatable]
    return .done
  | .setGlobal key value => do
    let k ← eval key
    let v ← eval value
    perform (Instance.assignRaw Instance.globals k v)
    return .done
  | .setGlobalsIndex t => do
    let v ← eval t
    let metatable ← perform (Action.newTable (Instance.tableOfNames [("__index", v)]))
    perform (Action.change fun i =>
      i.setTable Instance.globals
        { i.table Instance.globals with metatable := some metatable })
    return .done
  | .globalNames => do
    return .names (← perform do (← getThe Instance).globalNames)
  | .globalType name => do
    return .text (← perform (Action.ask fun i => (i.global name).typeName))
  | .unset name => do
    execute (Instance.assignNamed name .nil)
    return .done
  | .evalType name => do
    let v ← execute (Instance.named name)
    return .text (Instance.plainTypeName v)
  | .require name => do
    match ← callGlobal "require" [.ofText name] with
    | .table r =>
      let names := (← getThe Session).sets.flatMap (·.names)
      return .module (← perform (Action.ask fun i => agreement i r names))
    | v => return .noTable v.typeName
  | .destroy receiver => do
    perform (destroyUserData (← evalReceiver receiver))
    return .done

def keep (name : Option String) (reply : Reply) : StepAction Unit :=
  match name, reply with
  | some name, .value v =>
    modifyThe Session fun s => { s with bound := s.bound.insert name v }
  | _, _ => return ()

def shown : Reply → StepAction Reply
  | .value v => return .shown (← perform (View.ofValue v))
  | reply => return reply

def step (s : Step) (name : Option String) : StepAction Reply := do
  requireAlive
  let reply ← stepAlive s
  keep name reply
  shown reply

def newEntries (earlier later : Session) : List Log.Entry :=
  later.life.log.drop earlier.life.log.length

structure Turn where
  outcome : Except StepError Reply
  entries : List Log.Entry

def next (s : Session) (one : Step) (name : Option String) : Turn × Session :=
  let (outcome, later) := (step one name).run.run s
  (⟨outcome, newEntries s later⟩, later)

def runSteps (s : Session) : List (Step × Option String) → List Turn
  | [] => []
  | (one, name) :: rest =>
    let (turn, later) := s.next one name
    turn :: later.runSteps rest

end Session
end RecordTables
