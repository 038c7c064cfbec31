import RecordTables.Lifecycle
import RecordTables.Schema.WebAssembly

/-!
The bootstrap of an instance.

A host creates an instance and loads its libraries, and then a provider registers tables with it.
The first step that fails ends the bootstrap; what was created until then is released.  Each step is
noted where the host or the provider is called, and the instance is kept with its log even after a
failure.
-/

namespace RecordTables

/-- What an instance is to have: its libraries, a limit on its bytes, and the name of the module
that gathers the registered classes. -/
structure Configuration where
  libraries : List Library
  memoryLimit : Option Nat
  module : Option String
  deriving DecidableEq, Repr

def defaultModule : String := "wasm"

def Configuration.default : Configuration := ⟨Library.safe, none, some defaultModule⟩

/-- What creates an instance and loads its libraries, on a machine that counts the bytes in use. -/
structure Host where
  bytesInUse : Instance → Nat
  create : Except BootstrapError Instance
  load : Instance → Except BootstrapError Unit × Instance

/-- What registers tables: the names it defines, and how it does so. -/
structure Provider where
  names : List String
  inject : Instance → Except RegistrationError Unit × Instance

def Provision.provider (p : Provision) : Provider := ⟨p.set.names, Instance.inject p⟩

def Instance.prepare (bytesInUse : Instance → Nat) (c : Configuration) (i : Instance) :
    Except LuaError Instance := do
  let i ← i.addLibraries c.libraries
  match c.memoryLimit with
  | some limit => i.limitMemory (bytesInUse i) limit
  | none => return i

def Host.ofConfiguration (bytesInUse : Instance → Nat) (c : Configuration) : Host where
  bytesInUse := bytesInUse
  create := .ok .created
  load i := match i.prepare bytesInUse c with
    | .ok i => (.ok (), i)
    | .error e => (.error (.library e), i)

inductive BootstrapStep where
  | create
  | load
  | register
  deriving DecidableEq, Repr

def BootstrapStep.name : BootstrapStep → String
  | .create => "create"
  | .load => "load"
  | .register => "register"

/-- How far a bootstrap has come: the steps begun, and the life of the instance once there is one. -/
structure Progress where
  steps : List BootstrapStep
  life : Option Life

abbrev BootstrapAction (α : Type) : Type := ExceptT BootstrapError (StateM Progress) α

namespace BootstrapAction

def begin (step : BootstrapStep) : BootstrapAction Unit :=
  modifyThe Progress fun p => { p with steps := p.steps ++ [step] }

def keep (l : Life) : BootstrapAction Life := do
  modifyThe Progress fun p => { p with life := some l }
  return l

def create (host : Host) : BootstrapAction Life := do
  begin .create
  match host.create with
  | .error e => throw e
  | .ok i => keep (.ofInstance host.bytesInUse i)

/-- Calls a function for a step, and moves the life on or releases it. -/
def advance {ε : Type} (step : BootstrapStep) (next : Phase) (wrap : ε → BootstrapError)
    (function : Instance → Except ε Unit × Instance) (l : Life) : BootstrapAction Life := do
  begin step
  let (outcome, l) := l.advance next (function l.state)
  let l ← keep l
  match outcome with
  | .error e => throw (wrap e)
  | .ok () => return l

def all (host : Host) (provider : Provider) : BootstrapAction Life := do
  let l ← create host
  let l ← advance .load .loaded id host.load l
  advance .register .ready .registration provider.inject l

end BootstrapAction

/-- How a bootstrap went: the steps begun, the failure that ended it if there was one, and the life
of the instance if one was created. -/
structure Bootstrap extends Progress where
  failure : Option BootstrapError

namespace Bootstrap

def log (b : Bootstrap) : List Log.Entry := (b.life.map Life.log).getD []

def of (host : Host) (provider : Provider) : Bootstrap :=
  match (BootstrapAction.all host provider).run.run ⟨[], none⟩ with
  | (.error e, p) => ⟨p, some e⟩
  | (.ok _, p) => ⟨p, none⟩

def ofConfiguration (bytesInUse : Instance → Nat) (c : Configuration) : Bootstrap :=
  match WebAssembly.tables with
  | .error e => ⟨⟨[], none⟩, some (.registration (.schema e))⟩
  | .ok s => of (.ofConfiguration bytesInUse c) (Provision.provider ⟨s, c.module⟩)

end Bootstrap

inductive ExitStatus where
  | success
  | failure
  deriving DecidableEq, Repr

def ExitStatus.code : ExitStatus → UInt8
  | .success => 0
  | .failure => 1

/-- Boots an instance, counts its globals and releases it. -/
def runWith (bytesInUse : Instance → Nat) (c : Configuration) : ExitStatus × List Log.Entry :=
  let b := Bootstrap.ofConfiguration bytesInUse c
  match b.failure, b.life with
  | none, some l =>
    let count := match l.state.globalNames with
      | .ok names => names.length
      | .error _ => 0
    let l := l.move l.phase (l.state.note .info s!"runtime ready, {count} globals")
    (.success, l.release.log)
  | none, none => (.success, [])
  | some e, _ => (.failure, b.log ++ [⟨.error, e.message⟩])

end RecordTables
