import RecordTables.Dictionary
import RecordTables.Files.Path
import RecordTables.Text.Utf8

/-!
File systems.

A file system holds files, directories and devices, each at a path from its root, and a program works
in one of the directories.  A path as text is followed name by name from there, or from the root:
every name but the last must lead to a directory, `.` stays where it is and `..` goes back.
-/

namespace RecordTables

/-- What is at a path.  A device has something to read, and keeps nothing of what is written to it,
which it may also refuse. -/
inductive FileEntry where
  | file (bytes : List UInt8)
  | directory
  | device (input : List UInt8) (refusal : Option FileFault)
  deriving DecidableEq, Repr

/-- The entries by their paths from the root, and the directory to work in. -/
structure FileSystem where
  entries : Dictionary Path FileEntry
  here : Path
  deriving DecidableEq, Repr

namespace FileSystem

def empty : FileSystem := ⟨.empty, []⟩

def entry? (fs : FileSystem) : Path → Option FileEntry
  | [] => some .directory
  | path => fs.entries.find? path

def lookUp (fs : FileSystem) (folder : Path) (name : String) :
    Except FileFault (Option FileEntry) :=
  if PathText.nameLimit < name.utf8ByteSize then .error .nameTooLong
  else .ok (fs.entry? (folder ++ [name]))

def enter (fs : FileSystem) (folder : Path) (name : String) : Except FileFault Path := do
  match ← fs.lookUp folder name with
  | none => throw .notFound
  | some .directory => return folder ++ [name]
  | some _ => throw .notDirectory

def follow (fs : FileSystem) (folder : Path) : List String → Except FileFault Path
  | [] => .ok folder
  | name :: names =>
    if name = "." then fs.follow folder names
    else if name = ".." then fs.follow folder.dropLast names
    else
      match fs.enter folder name with
      | .error fault => .error fault
      | .ok next => fs.follow next names

/-- Whether a name leads to a directory whatever the entries are. -/
def isDots (name : String) : Bool := name = "." || name = ".."

/-- The directory and the name that a path ends in; the name is missing when the path leads to a
directory by itself. -/
def locate (fs : FileSystem) (p : PathText) : Except FileFault (Path × Option String) := do
  let folder ← fs.follow (if p.isAbsolute then [] else fs.here) p.names.dropLast
  return (folder, p.names.getLast?.filter fun name => !isDots name)

def read (fs : FileSystem) (path : String) : Except FileFault (List UInt8) := do
  let p ← PathText.read path
  match ← fs.locate p with
  | (_, none) => throw .isDirectory
  | (folder, some name) =>
    match ← fs.lookUp folder name with
    | none => throw .notFound
    | some .directory => throw .isDirectory
    | some (.file bytes) => if p.isClosed then throw .notDirectory else return bytes
    | some (.device input _) => if p.isClosed then throw .notDirectory else return input

def insert (fs : FileSystem) (path : Path) (entry : FileEntry) : FileSystem :=
  { fs with entries := fs.entries.insert path entry }

def write (fs : FileSystem) (path text : String) : Except FileFault FileSystem := do
  let p ← PathText.read path
  match ← fs.locate p with
  | (_, none) => throw .isDirectory
  | (folder, some name) =>
    if p.isClosed then throw .isDirectory
    match ← fs.lookUp folder name with
    | some .directory => throw .isDirectory
    | some (.device _ (some fault)) => throw fault
    | some (.device _ none) => return fs
    | _ => return fs.insert (folder ++ [name]) (.file (Text.bytesOf text))

def access : FileAccess (StateM FileSystem) where
  read path := do return (← get).read path
  write path text := do
    match (← get).write path text with
    | .error fault => return .error fault
    | .ok fs =>
      set fs
      return .ok ()

/-- The file system with an entry, and with the directories on the way to it. -/
def place (fs : FileSystem) (path : Path) (entry : FileEntry) : FileSystem :=
  let folders := (List.range path.length).tail.map fun n => path.take n
  (folders.foldl (fun fs folder => fs.insert folder .directory) fs).insert path entry

end FileSystem
end RecordTables
