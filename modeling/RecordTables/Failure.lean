import RecordTables.Schema.Error

/-!
Failures of a running instance.

`LuaError` is what goes wrong inside Lua: an error raised by a record function, or a value of the
wrong type where another is needed.  Registration and bootstrap wrap the failures of their steps;
`message` puts the wording of a step in front of that of its cause, and `source?` gives the cause
alone.
-/

namespace RecordTables

/-- A failure inside Lua.  `conversion` names the type of a value and what it was to become. -/
inductive LuaError where
  | runtime (text : String)
  | memory (text : String)
  | safety (text : String)
  | conversion (source target : String) (note : Option String)
  | badArgument (position : Nat) (cause : LuaError)
  | wrongUserData
  | destroyedUserData
  deriving DecidableEq, Repr

def LuaError.message : LuaError → String
  | .runtime text => s!"runtime error: {text}"
  | .memory text => s!"memory error: {text}"
  | .safety text => s!"safety error: {text}"
  | .conversion source target none => s!"error converting Lua {source} to {target}"
  | .conversion source target (some note) =>
    s!"error converting Lua {source} to {target} ({note})"
  | .badArgument position cause => s!"bad argument #{position}: {cause.message}"
  | .wrongUserData => "userdata is not expected type"
  | .destroyedUserData => "userdata has been destructed"

inductive RegistrationError where
  /-- The table set is invalid. -/
  | schema (error : SchemaError)
  /-- A table has the name of a global. -/
  | nameCollision (name : String)
  /-- Lua refused a step. -/
  | lua (error : LuaError)
  deriving DecidableEq, Repr

namespace RegistrationError

def message : RegistrationError → String
  | .schema error => s!"invalid table set: {error.message}"
  | .nameCollision name => s!"global `{name}` is already defined"
  | .lua error => s!"runtime error: {error.message}"

def source? : RegistrationError → Option String
  | .schema error => some error.message
  | .nameCollision _ => none
  | .lua error => some error.message

end RegistrationError

inductive BootstrapError where
  /-- No room for the instance. -/
  | allocation (reason : String)
  /-- The instance could not be made. -/
  | creation (error : LuaError)
  /-- The libraries could not be loaded. -/
  | library (error : LuaError)
  /-- The tables could not be registered. -/
  | registration (error : RegistrationError)
  deriving DecidableEq, Repr

namespace BootstrapError

def message : BootstrapError → String
  | .allocation reason => s!"failed to allocate runtime state: {reason}"
  | .creation error => s!"failed to create runtime: {error.message}"
  | .library error => s!"failed to load standard library: {error.message}"
  | .registration error => s!"failed to register tables: {error.message}"

def source? : BootstrapError → Option String
  | .allocation _ => none
  | .creation error => some error.message
  | .library error => some error.message
  | .registration error => some error.message

end BootstrapError
end RecordTables
