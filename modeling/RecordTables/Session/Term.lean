import RecordTables.Bootstrap

/-!
Terms: values as a session writes them.

A term stands for a value once the variables of the session are known.  Terms for tables, functions,
threads and userdata make a new one each time.
-/

namespace RecordTables

/-- A term: a plain value, a variable, a global, or something to be made. -/
inductive Term where
  | value (v : Value)
  | named (name : String)
  | global (name : String)
  | items (ts : List Term)
  | fill (n : Nat) (t : Term)
  | entries (ts : List (Term × Term))
  | function
  | thread
  | userData

instance : Inhabited Term := ⟨.value .nil⟩

inductive StepError where
  /-- The step does not belong to the phase of the instance. -/
  | misuse (misuse : Misuse)
  /-- A variable that has no value. -/
  | unbound (name : String)
  /-- A receiver that is no userdata. -/
  | notUserData (found : String)
  /-- A failure inside Lua. -/
  | lua (error : LuaError)
  /-- A table set that could not be put into the instance. -/
  | registration (error : RegistrationError)
  /-- A table set that could not be registered, which ended the life of the instance. -/
  | bootstrap (error : BootstrapError)
  deriving DecidableEq, Repr

def StepError.message : StepError → String
  | .misuse m => m.message
  | .unbound name => name
  | .notUserData found => found
  | .lua error => error.message
  | .registration error => error.message
  | .bootstrap error => error.message

/-- A session: the table sets it can register, the life of its instance, and its variables. -/
structure Session where
  sets : List TableSet
  life : Life
  bound : Dictionary String Value

abbrev StepAction (α : Type) : Type := ExceptT StepError (StateM Session) α

namespace Session

def operate {ε α : Type} (wrap : ε → StepError)
    (operation : Life → Except Misuse (Except ε α × Life)) : StepAction α := do
  let s ← getThe Session
  match operation s.life with
  | .error misuse => throw (.misuse misuse)
  | .ok (outcome, life) =>
    set { s with life := life }
    match outcome with
    | .ok a => return a
    | .error e => throw (wrap e)

def perform {α : Type} (action : Action α) : StepAction α :=
  operate .lua fun life => life.perform action

def nextIdentity : StepAction Nat :=
  perform do
    let i ← getThe Instance
    set { i with made := i.made + 1 }
    return i.made

def lookUp (name : String) : StepAction Value := do
  match (← getThe Session).bound.find? name with
  | some v => return v
  | none => throw (.unbound name)

/-- Values without the nils at their end. -/
def withoutLastNils (vs : List Value) : List Value :=
  (vs.reverse.dropWhile (· = .nil)).reverse

mutual

def eval : Term → StepAction Value
  | .value v => return v
  | .named name => lookUp name
  | .global name => perform (Action.ask (·.global name))
  | .items ts => do
    let vs ← evalAll ts
    return .table (← perform (Action.newTable (.ofItems (withoutLastNils vs))))
  | .fill n t => do
    let v ← eval t
    let filled := if v = .nil then LuaTable.empty else .grown (List.replicate n v)
    return .table (← perform (Action.newTable filled))
  | .entries ts => do
    let r ← perform (Action.newTable .empty)
    evalEntries r ts
    return .table r
  | .function => return .function (.given (← nextIdentity))
  | .thread => return .thread (← nextIdentity)
  | .userData => return .userData (← nextIdentity)

def evalAll : List Term → StepAction (List Value)
  | [] => return []
  | t :: ts => do
    let v ← eval t
    return v :: (← evalAll ts)

def evalEntries (r : TableRef) : List (Term × Term) → StepAction Unit
  | [] => return ()
  | (key, value) :: ts => do
    let k ← eval key
    let v ← eval value
    perform (Instance.assignRaw r k v)
    evalEntries r ts

end

def evalReceiver (t : Term) : StepAction Value := do
  match ← eval t with
  | .record r => return .record r
  | .userData n => return .userData n
  | v => throw (.notUserData v.typeName)

end Session
end RecordTables
