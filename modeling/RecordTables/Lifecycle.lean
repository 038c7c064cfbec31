import RecordTables.Instance.Registration

/-!
The life of an instance.

A life moves forward through its phases: the instance is created, its libraries are loaded, tables
are registered and the instance is ready, and at the end it is released.  A load or a registration
that fails releases the instance at once.  An operation that does not belong to the phase has no
effect and says why.

There are two ways to run a script.  `execute` asks for an instance that is ready; `perform` reaches
the Lua state of the instance directly, in every phase until the release.
-/

namespace RecordTables

inductive Phase where
  | created
  | loaded
  | ready
  | released
  deriving DecidableEq, Repr

def Phase.rank : Phase → Nat
  | .created => 0
  | .loaded => 1
  | .ready => 2
  | .released => 3

/-- An operation that came in the wrong phase. -/
inductive Misuse where
  | notCreated
  | notLoaded
  | notReady
  | released
  deriving DecidableEq, Repr

def Misuse.message : Misuse → String
  | .notCreated => "no created runtime"
  | .notLoaded => "no loaded runtime"
  | .notReady => "no ready runtime"
  | .released => "the runtime was released"

/-- An instance and how far its life has come.  How many bytes an instance takes up is for the machine
to say. -/
structure Life where
  phase : Phase
  state : Instance
  bytesInUse : Instance → Nat

namespace Life

def ofInstance (bytesInUse : Instance → Nat) (i : Instance) : Life := ⟨.created, i, bytesInUse⟩

def log (l : Life) : List Log.Entry := l.state.log

def move (l : Life) (phase : Phase) (i : Instance) : Life := { l with phase := phase, state := i }

@[simp] theorem move_phase (l : Life) (phase : Phase) (i : Instance) :
    (l.move phase i).phase = phase := rfl

@[simp] theorem move_state (l : Life) (phase : Phase) (i : Instance) :
    (l.move phase i).state = i := rfl

def misuse? (l : Life) (needed : Phase) : Option Misuse :=
  if l.phase = needed then none
  else match l.phase, needed with
    | .released, _ => some .released
    | _, .created => some .notCreated
    | _, .loaded => some .notLoaded
    | _, .ready => some .notReady
    | _, .released => none

/-- Releases the instance, unless that has been done. -/
def release (l : Life) : Life :=
  if l.phase = .released then l
  else l.move .released
    (l.state.note .debug s!"releasing runtime instance ({l.bytesInUse l.state} bytes in use)")

/-- Moves on to a phase if a step succeeded, and releases the instance if it failed. -/
def advance {ε : Type} (l : Life) (next : Phase) :
    Except ε Unit × Instance → Except ε Unit × Life
  | (.ok (), i) => (.ok (), l.move next i)
  | (.error e, i) => (.error e, (l.move l.phase i).release)

def load {ε : Type} (l : Life) (step : Instance → Except ε Unit × Instance) :
    Except Misuse (Except ε Unit × Life) :=
  match l.misuse? .created with
  | some misuse => .error misuse
  | none => .ok (l.advance .loaded (step l.state))

/-- Puts tables into an instance with its libraries, which stays in that phase. -/
def inject {ε : Type} (l : Life) (step : Instance → Except ε Unit × Instance) :
    Except Misuse (Except ε Unit × Life) :=
  match l.misuse? .loaded with
  | some misuse => .error misuse
  | none =>
    let (outcome, i) := step l.state
    .ok (outcome, l.move .loaded i)

def register {ε : Type} (l : Life) (step : Instance → Except ε Unit × Instance) :
    Except Misuse (Except ε Unit × Life) :=
  match l.misuse? .loaded with
  | some misuse => .error misuse
  | none => .ok (l.advance .ready (step l.state))

/-- Runs an action on the instance, as long as there is one. -/
def perform {α : Type} (l : Life) (action : Action α) :
    Except Misuse (Except LuaError α × Life) :=
  if l.phase = .released then .error .released
  else
    let (outcome, i) := action.run.run l.state
    .ok (outcome, l.move l.phase i)

/-- Runs an action on an instance that is ready. -/
def execute {α : Type} (l : Life) (action : Action α) :
    Except Misuse (Except LuaError α × Life) :=
  match l.misuse? .ready with
  | some misuse => .error misuse
  | none => l.perform action

end Life
end RecordTables
