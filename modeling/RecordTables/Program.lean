import RecordTables.Generator.Run

/-!
The two programs: the generator, and the program that boots an instance and releases it.

Both write only to the error stream: first the log, as far as the environment asks for it, and then
what went wrong.  A program ends with code zero if it did what it was asked to, with one if it
failed, and with two if its arguments make no sense.
-/

namespace RecordTables

/-- The end of a program: its exit code, and what it wrote to the error stream. -/
structure Execution where
  code : UInt8
  errors : List String
  deriving DecidableEq, Repr

def errorLine (text : String) : String := s!"Error: {text}"

/-- The generator, called by a name with arguments.  `setting` is what the environment says of the
log. -/
def Generator.program {m : Type → Type} [Monad m] (files : FileAccess m) (setting : Option String)
    (name : String) (arguments : List String) : m Execution := do
  match Generator.Options.read arguments with
  | .error e => return ⟨2, errorLine e.message :: Generator.usage name⟩
  | .ok options =>
    let (outcome, entries) ← (Generator.generate files options).run.run []
    let lines := Log.lines (Log.Threshold.ofEnvironment setting) entries
    match outcome with
    | .ok () => return ⟨0, lines⟩
    | .error failure => return ⟨1, lines ++ [errorLine failure.message]⟩

/-- The program that boots an instance of the default configuration. -/
def Bootstrap.program (bytesInUse : Instance → Nat) (setting : Option String) : Execution :=
  let (status, entries) := runWith bytesInUse .default
  ⟨status.code, Log.lines (Log.Threshold.ofEnvironment setting) entries⟩

end RecordTables
