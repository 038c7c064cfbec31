import RecordTables.Failure
import RecordTables.Instance.Library
import RecordTables.Instance.LuaTable
import RecordTables.Log
import RecordTables.Number.Decimal
import RecordTables.Record.Store

/-!
Instances of Lua.

An instance holds tables, records, and for each table name the class that the records of that name
belong to.  It begins with the base functions; libraries are added to it later.  What happens to an
instance is entered in its log.
-/

namespace RecordTables

/-- The key under which the class of a table name is registered. -/
def classKey (name : String) : String := s!"wasmtab.class.{name}"

/-- An instance.  `classes` is the registry of classes, `strings` is the metatable of all strings,
`made` counts the values with an identity that were made from outside, and `destroyed` holds the
userdata, records apart, that are no more. -/
structure Instance where
  tables : Array LuaTable
  records : Records
  classes : Dictionary String TableRef
  strings : Option TableRef
  made : Nat
  destroyed : List Nat
  log : List Log.Entry

namespace Instance

def globals : TableRef := ⟨0⟩

def loaded : TableRef := ⟨1⟩

/-- The table of the loaders of modules. -/
def preload : TableRef := ⟨2⟩

def package : TableRef := ⟨3⟩

/-- The table of the functions that look for the loader of a module. -/
def searchers : TableRef := ⟨4⟩

/-- The metatable of every userdata that was destroyed. -/
def remains : TableRef := ⟨5⟩

/-- The function that looks for the loader of a module among those that are preloaded. -/
def preloadSearcher : Function := .library "package.searchers.1"

def fileSearcher : Function := .library "package.searchers.2"

/-- The function that would look for a module in machine code, and finds none. -/
def nativeSearcher : Function := .library "package.searchers.3"

def tableOfNames (entries : List (String × Value)) : LuaTable :=
  entries.foldl (fun t (name, value) => t.rawSet (.ofText name) value) .empty

def created : Instance where
  tables := #[
    tableOfNames ([("_G", .table globals), ("_VERSION", .ofText "Lua 5.4")]
      ++ Library.baseFunctions.map fun name => (name, .function (.library name))),
    tableOfNames [("_G", .table globals)],
    .empty,
    tableOfNames (Library.package.entries ++ [("loaded", .table loaded),
      ("preload", .table preload), ("searchers", .table searchers)]),
    .ofItems [.function preloadSearcher, .function fileSearcher, .function nativeSearcher],
    .empty]
  records := .empty
  classes := .empty
  strings := none
  made := 0
  destroyed := []
  log := []

def table (i : Instance) (r : TableRef) : LuaTable := i.tables.getD r.index .empty

def setTable (i : Instance) (r : TableRef) (t : LuaTable) : Instance :=
  { i with tables := i.tables.setIfInBounds r.index t }

def newTable (i : Instance) (t : LuaTable) : Instance × TableRef :=
  ({ i with tables := i.tables.push t }, ⟨i.tables.size⟩)

theorem table_setTable_self {i : Instance} {r : TableRef} (t : LuaTable)
    (h : r.index < i.tables.size) : (i.setTable r t).table r = t := by
  simp [table, setTable, h]

theorem table_setTable_of_ne (i : Instance) {r other : TableRef} (t : LuaTable) (h : other ≠ r) :
    (i.setTable r t).table other = i.table other := by
  have hr : r.index ≠ other.index := fun e => h (by cases r; cases other; simp_all)
  simp [table, setTable, Array.getD_eq_getD_getElem?, Array.getElem?_setIfInBounds_ne hr]

@[simp] theorem table_newTable_self (i : Instance) (t : LuaTable) :
    (i.newTable t).1.table (i.newTable t).2 = t := by
  simp [table, newTable]

theorem table_newTable_of_ne (i : Instance) {r : TableRef} (t : LuaTable)
    (h : r ≠ (i.newTable t).2) : (i.newTable t).1.table r = i.table r := by
  have hr : r.index ≠ i.tables.size := fun e => h (by cases r; simp_all [newTable])
  simp [table, newTable, Array.getD_eq_getD_getElem?, Array.getElem?_push, hr]

/-- The value at a key of a table, without regard to its metatable. -/
def rawGet (i : Instance) (r : TableRef) (key : Value) : Value := (i.table r).rawGet key

def rawSet (i : Instance) (r : TableRef) (key value : Value) : Instance :=
  i.setTable r ((i.table r).rawSet key value)

def global (i : Instance) (name : String) : Value := i.rawGet globals (.ofText name)

def setGlobal (i : Instance) (name : String) (value : Value) : Instance :=
  i.rawSet globals (.ofText name) value

def note (i : Instance) (level : Log.Level) (text : String) : Instance :=
  { i with log := i.log ++ [⟨level, text⟩] }

/-- The content that a value is as an argument: a table counts as its items. -/
def content (i : Instance) : Value → Content
  | .table r => .sequence (i.table r).toList
  | v => .single v

/-- The instance after the length of a value was asked for, if it is a table. -/
def measured (i : Instance) : Value → Instance
  | .table r => i.setTable r (i.table r).measured
  | _ => i

def isDestroyed (i : Instance) : Value → Bool
  | .record r => (i.records.get? r).isNone
  | .userData n => i.destroyed.contains n
  | _ => false

/-! ## Libraries -/

/-- The table of a library, which `package` has from the start. -/
def libraryTable (i : Instance) : Library → Instance × TableRef
  | .package => (i, package)
  | .io =>
    let streams := Library.streams.zipIdx.map fun (name, n) => (name, Value.userData (i.made + n))
    { i with made := i.made + streams.length }.newTable
      (tableOfNames (Library.io.entries ++ streams))
  | library => i.newTable (tableOfNames library.entries)

def stringMetatable (library : TableRef) : LuaTable :=
  tableOfNames (("__index", .table library)
    :: Library.stringOperators.map fun name => (name, .function (.library s!"string.{name}")))

def addLibrary (i : Instance) (library : Library) : Instance :=
  let (i, r) := i.libraryTable library
  let i := i.setGlobal library.name (.table r)
  let i := i.rawSet loaded (.ofText library.name) (.table r)
  match library with
  | .package => i.setGlobal "require" (.function (.library "require"))
  | .string =>
    let (i, metatable) := i.newTable (stringMetatable r)
    { i with strings := some metatable }
  | _ => i

/-- The instance with libraries.  `debug` is refused, since it undoes the protection of classes and
records. -/
def addLibraries (i : Instance) (libraries : List Library) : Except LuaError Instance :=
  if .debug ∈ libraries then
    .error (.safety "the unsafe `debug` module can't be loaded in safe mode")
  else .ok ((Library.safe.filter (· ∈ libraries)).foldl addLibrary i)

/-- The instance with a limit on its bytes, which those in use must not have passed yet.  The limit is
not followed after that. -/
def limitMemory (i : Instance) (used limit : Nat) : Except LuaError Instance :=
  if limit < used then
    .error (.memory s!"memory limit of {limit} bytes is below the {used} bytes already in use")
  else .ok (i.note .debug s!"memory limit set to {limit} bytes ({used} in use)")

/-! ## Names -/

def textOfString (bytes : List UInt8) : Except LuaError String :=
  match Text.Utf8.decode? bytes with
  | some text => .ok text
  | none => .error (.conversion "string" "&str" ((Text.Utf8.fault? bytes).map (·.message)))

/-- Numbers that become strings: fourteen digits at most, positional from `1e-4` up to `1e14`, and
always with a point or a power of ten. -/
def numberText : Decimal.Layout where
  precision := .significant 14
  bounds := some (-4, 13)
  powerDigits := 2
  point := true
  nan := "nan"
  infinity := "inf"

def textOfKey : Value → Except LuaError String
  | .string bytes => textOfString bytes
  | .integer n => .ok (toString n.toInt)
  | .float x => .ok (numberText.text x)
  | v => .error (.conversion v.typeName "String" (some "expected string or number"))

/-- The names among keys.  A string that is no text is refused. -/
def namesAmong : List Value → Except LuaError (List String)
  | [] => .ok []
  | .string bytes :: keys => do return (← textOfString bytes) :: (← namesAmong keys)
  | _ :: keys => namesAmong keys

/-- The entries of a table in order, each as its key and the type of its value. -/
def entryTypes (i : Instance) (r : TableRef) : Except LuaError (List String) := do
  let shown ← (i.table r).keys.mapM fun key => do
    return s!"{← textOfKey key}: {(i.rawGet r key).typeName}"
  return shown.mergeSort (· ≤ ·)

def globalNames (i : Instance) : Except LuaError (List String) :=
  (namesAmong (i.table globals).keys).map fun names => names.mergeSort (· ≤ ·)

end Instance
end RecordTables
