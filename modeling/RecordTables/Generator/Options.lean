/-!
The options of the generator.

A list of arguments is read from left to right; an option for a file takes the argument after it,
whatever that is, and the last file given for an option counts.
-/

namespace RecordTables
namespace Generator

inductive FileOption where
  | defs
  | doc
  | lua
  deriving DecidableEq, Repr

namespace FileOption

def name : FileOption → String
  | .defs => "--defs"
  | .doc => "--doc"
  | .lua => "--lua"

def ofName? (name : String) : Option FileOption := [defs, doc, lua].find? (·.name = name)

end FileOption

def checkName : String := "--check"

structure Options where
  defs : Option String
  doc : Option String
  lua : Option String
  check : Bool
  deriving DecidableEq, Repr

inductive UsageError where
  /-- The last argument is an option without its file. -/
  | missingFile (option : FileOption)
  /-- An argument that is no option. -/
  | unknown (argument : String)
  /-- Nothing is asked for. -/
  | nothingToDo
  deriving DecidableEq, Repr

def UsageError.message : UsageError → String
  | .missingFile option => s!"{option.name} expects a file path"
  | .unknown argument => s!"unknown argument `{argument}`"
  | .nothingToDo => "nothing to do"

namespace Options

def none : Options := ⟨.none, .none, .none, false⟩

def withFile (o : Options) (option : FileOption) (path : String) : Options :=
  match option with
  | .defs => { o with defs := some path }
  | .doc => { o with doc := some path }
  | .lua => { o with lua := some path }

def isActive (o : Options) : Bool := o.check || o.doc.isSome || o.lua.isSome

/-- The options that arguments add to those read before. -/
def readFrom (o : Options) : List String → Except UsageError Options
  | [] => if o.isActive then .ok o else .error .nothingToDo
  | argument :: rest =>
    if argument = checkName then readFrom { o with check := true } rest
    else
      match FileOption.ofName? argument, rest with
      | .none, _ => .error (.unknown argument)
      | .some option, [] => .error (.missingFile option)
      | .some option, path :: rest => readFrom (o.withFile option path) rest

def read (arguments : List String) : Except UsageError Options := none.readFrom arguments

end Options

def usage (program : String) : List String :=
  ["wasmtab table generator",
    s!"Usage: {program} [--defs FILE] [--doc FILE] [--lua FILE] [--check]",
    "  --defs FILE   table definitions (JSON); built-in WebAssembly tables if omitted",
    "  --doc FILE    write the Markdown reference",
    "  --lua FILE    write the Lua module",
    "  --check       only validate the definitions"]

end Generator
end RecordTables
