import RecordTables.Instance.Index

/-!
Putting a table set into an instance.

Each table becomes a class: a table of functions that makes records when it is called.  The names
are compared with the globals before anything is defined.  With a module name, the classes can also
be had as one module, as long as the `package` library is there to load it.
-/

namespace RecordTables

/-- A table set to register, and the name of the module that gathers its classes. -/
structure Provision where
  set : TableSet
  module : Option String
  deriving DecidableEq, Repr

namespace Instance

def accessors (owner : TableRef) (t : Table) (f : Field) (index : Nat) : List (String × Value) :=
  [(f.name, .function (.accessor owner t (.get index))),
    (setterName f.name, .function (.accessor owner t (.set index)))]

def classFunctions (owner : TableRef) (t : Table) : List (String × Value) :=
  ("new", .function (.accessor owner t .create))
    :: t.fields.zipIdx.flatMap fun (f, index) => accessors owner t f index

/-- A class has its constructor, and a getter and a setter for each field. -/
theorem mem_classFunctions_iff {owner : TableRef} {t : Table} {e : String × Value} :
    e ∈ classFunctions owner t ↔ e = ("new", .function (.accessor owner t .create)) ∨
      ∃ index f, t.fields[index]? = some f ∧
        (e = (f.name, .function (.accessor owner t (.get index))) ∨
          e = (setterName f.name, .function (.accessor owner t (.set index)))) := by
  unfold classFunctions accessors
  rw [List.mem_cons, List.mem_flatMap]
  refine or_congr Iff.rfl ⟨?_, ?_⟩
  · rintro ⟨⟨f, index⟩, hf, he⟩
    exact ⟨index, f, List.mem_zipIdx_iff_getElem?.1 hf, by simpa using he⟩
  · rintro ⟨index, f, hf, he⟩
    exact ⟨(f, index), List.mem_zipIdx_iff_getElem?.2 hf, by simpa using he⟩

/-- The metatable of a class: the class can be called, and its metatable is hidden behind its
name. -/
def classMetatable (owner : TableRef) (t : Table) : LuaTable :=
  tableOfNames [("__call", .function (.accessor owner t .call)), ("__name", .ofText t.name),
    ("__metatable", .ofText t.name)]

/-- The instance with the class of a table, to which the records of its name now belong. -/
def defineClass (i : Instance) (t : Table) : Instance × TableRef :=
  let (i, owner) := i.newTable .empty
  let (i, metatable) := i.newTable (classMetatable owner t)
  let i := i.setTable owner
    { tableOfNames (classFunctions owner t) with metatable := some metatable }
  ({ i with classes := i.classes.insert (classKey t.name) owner }, owner)

/-- The first of names that is a global.  Any value but nil counts, and so do the values that the
metatable of the globals adds. -/
def firstTaken : List String → Action (Option String)
  | [] => return none
  | name :: names => do
    match ← index (.table globals) (.ofText name) with
    | .nil => firstTaken names
    | _ => return some name

def defineClasses (i : Instance) : List Table → Instance × List (String × TableRef)
  | [] => (i, [])
  | t :: ts =>
    let (i, r) := i.defineClass t
    let (i, classes) := (i.note .debug s!"defined class {t.name}").defineClasses ts
    (i, (t.name, r) :: classes)

def bindClass (module : TableRef) (i : Instance) (c : String × TableRef) : Instance :=
  (i.setGlobal c.1 (.table c.2)).rawSet module (.ofText c.1) (.table c.2)

/-- The instance with the classes of a set as globals, and the module that gathers them. -/
def bindSet (i : Instance) (s : TableSet) : Instance × TableRef :=
  let (i, classes) := i.defineClasses s.tables
  let (i, module) := i.newTable .empty
  (classes.foldl (bindClass module) i, module)

/-- Makes a module available under a name, if the `package` library is there. -/
def preloadModule (name : String) (module : TableRef) : Action Unit := do
  match ← index (.table globals) (.ofText "package") with
  | .nil =>
    Action.change (·.note .warn
      s!"package library not loaded; `require(\"{name}\")` will be unavailable")
  | .table package =>
    match ← index (.table package) (.ofText "preload") with
    | .table loaders =>
      assign (.table loaders) (.ofText name) (.function (.loader module))
      Action.change (·.note .debug s!"module `{name}` preloaded")
    | v => throw (.conversion v.typeName "table" none)
  | v => throw (.conversion v.typeName "table" none)

def defineSet (p : Provision) : Action Unit := do
  let (i, module) := (← getThe Instance).bindSet p.set
  set i
  match p.module with
  | some name => preloadModule name module
  | none => pure ()
  Action.change (·.note .info s!"registered {p.set.size} tables")

def inject (p : Provision) (i : Instance) : Except RegistrationError Unit × Instance :=
  match (firstTaken p.set.names).run.run i with
  | (.error e, i) => (.error (.lua e), i)
  | (.ok (some name), i) => (.error (.nameCollision name), i)
  | (.ok none, i) =>
    match (defineSet p).run.run i with
    | (.error e, i) => (.error (.lua e), i)
    | (.ok (), i) => (.ok (), i)

end Instance
end RecordTables
