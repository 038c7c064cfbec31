import RecordTables.Program

/-!
The command line.

Under the name of the boot program it boots an instance and releases it.  Under any other name it is
the generator, and works on the files of the machine.
-/

namespace RecordTables

/-- The number of an error, which some operations give with its sign turned. -/
def errorNumber (code : UInt32) : UInt32 := if code < 0x80000000 then code else -code

def FileFault.ofNumber (code : UInt32) (details : String) : FileFault :=
  if code = 2 then .notFound
  else if code = 20 then .notDirectory
  else if code = 21 then .isDirectory
  else if code = 36 then .nameTooLong
  else .other s!"{details} (os error {code})"

def FileFault.ofError : IO.Error → FileFault
  | .noFileOrDirectory _ code details => ofNumber (errorNumber code) details
  | .inappropriateType _ code details => ofNumber (errorNumber code) details
  | .permissionDenied _ code details => ofNumber (errorNumber code) details
  | .invalidArgument _ code details => ofNumber (errorNumber code) details
  | .resourceExhausted _ code details => ofNumber (errorNumber code) details
  | e => .other e.toString

def outcomeOf {α : Type} (operation : IO α) : IO (Except FileFault α) := do
  try return .ok (← operation)
  catch e => return .error (.ofError e)

def machineFiles : FileAccess IO where
  read path := outcomeOf do return (← IO.FS.readBinFile path).toList
  write path text := outcomeOf (IO.FS.writeFile path text)

/-- The instances of this program take up no memory of a Lua state, so none is counted. -/
def bytesInUse (_ : Instance) : Nat := 0

end RecordTables

open RecordTables in
/-- Runs the program that the name of the executable asks for. -/
def main (arguments : List String) : IO UInt32 := do
  let setting ← IO.getEnv "WASMTAB_LOG"
  let name := (← IO.appPath).fileName.getD "wasmtab-gen"
  let execution ←
    if name = "wasmtab" then pure (Bootstrap.program bytesInUse setting)
    else Generator.program machineFiles setting name arguments
  for line in execution.errors do IO.eprintln line
  return execution.code.toUInt32
