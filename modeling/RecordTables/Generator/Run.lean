import RecordTables.Bootstrap
import RecordTables.Document.Tables
import RecordTables.Files.Access
import RecordTables.Generator.Options
import RecordTables.Render.Module

/-!
The generator.

It takes a table set from a file, or the WebAssembly tables, and writes the reference and then the
module, each where a file is given for it.  Nothing is written before the whole set is known to be
good, and nothing after a write that failed.
-/

namespace RecordTables
namespace Generator

inductive Failure where
  /-- A file of definitions that cannot be read. -/
  | unreadable (path : String) (fault : FileFault)
  /-- A file whose definitions are no table set. -/
  | invalid (path : String) (error : SchemaError)
  /-- The WebAssembly tables are no table set. -/
  | invalidBuiltIn (error : SchemaError)
  /-- A file that cannot be written. -/
  | unwritable (path : String) (fault : FileFault)
  deriving DecidableEq, Repr

def Failure.message : Failure → String
  | .unreadable path fault => s!"failed to read {path}: {fault.message}"
  | .invalid path error => s!"invalid {path}: {error.message}"
  | .invalidBuiltIn error => s!"invalid built-in definitions: {error.message}"
  | .unwritable path fault => s!"failed to write {path}: {fault.message}"

/-- A part of the work, with the log that it adds to. -/
abbrev Work (m : Type → Type) (α : Type) : Type := ExceptT Failure (StateT (List Log.Entry) m) α

variable {m : Type → Type} [Monad m]

def note (text : String) : Work m Unit :=
  modifyThe (List Log.Entry) (· ++ [⟨.info, text⟩])

/-- The table set that the bytes of a file declare. -/
def setOfBytes (path : String) (bytes : List UInt8) : Except Failure TableSet :=
  match Text.Utf8.decode? bytes with
  | none => .error (.unreadable path .notText)
  | some document => (TableSet.ofDocument document).mapError (.invalid path)

def loadSet (files : FileAccess m) (defs : Option String) : Work m TableSet := do
  match defs with
  | none => ExceptT.mk (pure (WebAssembly.tables.mapError .invalidBuiltIn))
  | some path =>
    match ← files.read path with
    | .error fault => throw (.unreadable path fault)
    | .ok bytes => ExceptT.mk (pure (setOfBytes path bytes))

/-- Writes a text, if there is a file for it. -/
def writeTo (files : FileAccess m) (path : Option String) (text : String) : Work m Unit := do
  match path with
  | none => return ()
  | some path =>
    match ← files.write path text with
    | .error fault => throw (.unwritable path fault)
    | .ok () => note s!"wrote {path}"

def generate (files : FileAccess m) (o : Options) : Work m Unit := do
  let s ← loadSet files o.defs
  note s!"{s.size} tables"
  writeTo files o.doc (Render.Markdown.render s)
  writeTo files o.lua (Render.Module.render s defaultModule)

end Generator
end RecordTables
