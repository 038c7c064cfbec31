import RecordTables.Instance.Call

/-!
Modules.

A module is had by its name.  One that is not loaded yet is looked for by the searchers of the
`package` library in order: the first of them knows the loaders that were preloaded, and the loader
that is found is called once.
-/

namespace RecordTables
namespace Instance

def isTrue : Value → Bool
  | .nil => false
  | .boolean b => b
  | _ => true

/-- What a searcher gives for the name of a module: the loader, if it finds one. -/
def search (searcher : Value) (name : Value) : Action Value := do
  let (f, args) ← callee searcher [name]
  if f = preloadSearcher then Action.ask (·.rawGet preload name)
  else if f = fileSearcher then
    match ← Action.ask (·.rawGet package (.ofText "path")) with
    | .string _ | .integer _ | .float _ => return .nil
    | _ => throw (.runtime "'package.path' must be a string")
  else callOwn f args

/-- The first loader of a module that one of the searchers at the keys from `n` on finds.  `left`
is the number of keys that may have a searcher. -/
def findLoader (searchers : TableRef) (name : Value) : (left n : Nat) → Action (Option Function)
  | 0, _ => return none
  | left + 1, n => do
    match ← Action.ask (·.rawGet searchers (.integer (Int64.ofNat n))) with
    | .nil => return none
    | searcher =>
      match ← search searcher name with
      | .function loader => return some loader
      | _ => findLoader searchers name left (n + 1)

def loaderOf (name : Value) (shown : String) : Action Function := do
  match ← Action.ask (·.rawGet package (.ofText "searchers")) with
  | .table r =>
    let count ← Action.ask fun i => (i.table r).keys.length
    match ← findLoader r name count 1 with
    | some loader => return loader
    | none => throw (.runtime s!"module '{shown}' not found:")
  | _ => throw (.runtime "'package.searchers' must be a table")

/-- The module of a name.  It is looked for among the modules that are loaded; if it is not there,
its loader is called, and what the loader gives is kept for the next time, nil as true. -/
def requireModule (name : List UInt8) : Action Value := do
  let key := Value.string (cutAtZero name)
  let found ← Action.ask (·.rawGet loaded key)
  if isTrue found then return found
  let loader ← loaderOf key (String.ofList (Text.Utf8.lossy (cutAtZero name)))
  let result ← callOwn loader [key, .ofText ":preload:"]
  if result ≠ .nil then Action.change (·.rawSet loaded key result)
  if (← Action.ask (·.rawGet loaded key)) = .nil then
    Action.change (·.rawSet loaded key (.boolean true))
  Action.ask (·.rawGet loaded key)

def callFunction (f : Function) (args : List Value) : Action Value :=
  match f with
  | .library "require" =>
    match args.headD .nil with
    | .string name => requireModule name
    | .integer n => requireModule (Text.bytesOf (toString n.toInt))
    | .float x => requireModule (Text.bytesOf (numberText.text x))
    | v => do
      let found := (← getThe Instance).kindName v
      throw (.runtime s!"bad argument #1 to 'require' (string expected, got {found})")
  | f => callOwn f args

end Instance
end RecordTables
