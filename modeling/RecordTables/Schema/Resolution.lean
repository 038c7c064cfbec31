import RecordTables.Schema.Declaration
import RecordTables.Schema.Error
import RecordTables.Schema.Name

/-!
From declarations to a table set.

Names and tags of all tables are checked first, in set order.  Then each table is resolved by
itself: its field names and tags, the names its class needs, and at last its fields one by one,
where references become indices and table names.  The first broken rule in this order is the error.
-/

namespace RecordTables

/-- The field being resolved, for error messages. -/
structure Site where
  table : String
  field : String

namespace Site

def incompatible {α : Type} (site : Site) (reason : String) : Except SchemaError α :=
  .error (.incompatibleType site.table site.field reason)

def badCondition {α : Type} (site : Site) (reason : String) : Except SchemaError α :=
  .error (.invalidCondition site.table site.field reason)

def unresolved {α : Type} (site : Site) (target : String) : Except SchemaError α :=
  .error (.unresolvedField site.table site.field target)

end Site

/-! ## Types -/

def LuaType.canHold : LuaType → ValueType → Bool
  | .lightUserData, _ => true
  | .integer, .scalar s => s.isIntegral
  | .number, .scalar s => s.isNumeric
  | .string, .scalar s => s = .string
  | .boolean, .scalar s => s = .bool
  | .table, .table _ => true
  | _, _ => false

def ValueType.isForeign : ValueType → Bool
  | .foreign _ => true
  | _ => false

def mismatchReason (luaType : LuaType) (type : ValueType) : String :=
  s!"`{type.describe}` cannot be represented as {luaType.name}"

/-- Checks that a field of the arity can hold the type.  A sequence is a Lua table, and its items
have a type that is known. -/
def checkCompatible (site : Site) (luaType : LuaType) (type : ValueType) (arity : Arity) :
    Except SchemaError Unit :=
  if arity.isSequence then
    if luaType ≠ .table then site.incompatible "sequences must use luatype `table`"
    else if type.isForeign then site.incompatible (mismatchReason luaType type)
    else .ok ()
  else if luaType.canHold type then .ok ()
  else site.incompatible (mismatchReason luaType type)

/-- The type that a text declares: a reference to a table, a scalar, or a name. -/
def resolveType (tables : List TableDecl) (site : Site) (text : String) :
    Except SchemaError ValueType :=
  match referent? text with
  | some tag =>
    match tables.find? (·.tag = tag) with
    | some t => .ok (.table t.name)
    | none => .error (.unresolvedType site.table site.field text)
  | none =>
    match ScalarType.ofName? text with
    | some s => .ok (.scalar s)
    | none => .ok (.foreign text)

/-! ## References between fields -/

def siblingIndex? (fields : List FieldDecl) (tag : String) : Option Nat :=
  fields.findIdx? (·.effectiveTag = tag)

/-- The index of the field that a reference refers to, which has to hold a single integer. -/
def resolveSibling (fields : List FieldDecl) (site : Site) (text : String) :
    Except SchemaError Nat :=
  match referent? text with
  | none => site.unresolved text
  | some tag =>
    match siblingIndex? fields tag with
    | none => site.unresolved text
    | some index =>
      match fields[index]? with
      | none => site.unresolved text
      | some sibling =>
        if sibling.luaType ≠ .integer ∨ sibling.count.isSome then
          site.incompatible s!"`{sibling.name}` must be a single integer field"
        else if sibling.name = site.field then
          site.incompatible "a field cannot refer to itself"
        else .ok index

/-- The count that stands for any number of values. -/
def anyCount : String := "*"

def resolveArity (fields : List FieldDecl) (site : Site) :
    Option CountDecl → Except SchemaError Arity
  | none => .ok .one
  | some (.fixed 0) => site.incompatible "count must be at least 1"
  | some (.fixed 1) => .ok .one
  | some (.fixed n) => .ok (.fixed n)
  | some (.named text) =>
    if text = anyCount then .ok .unbounded
    else (resolveSibling fields site text).map .counted

/-- The cases of a conditional field, of which `earlier` have been seen. -/
def resolveCases (tables : List TableDecl) (site : Site) (earlier : List CaseDecl) :
    List CaseDecl → Except SchemaError (List Case)
  | [] => .ok []
  | c :: rest => do
    if earlier.any (·.selector = c.selector) then
      site.badCondition s!"case {c.selector} appears twice"
    if c.luaType = .conditional then site.badCondition "cases cannot be conditional"
    let type ← resolveType tables site c.type
    checkCompatible site c.luaType type .one
    let cases ← resolveCases tables site (c :: earlier) rest
    return ⟨c.selector, c.luaType, type⟩ :: cases

def resolveCondition (tables : List TableDecl) (fields : List FieldDecl) (site : Site)
    (f : FieldDecl) : Except SchemaError Condition := do
  match f.condition with
  | none => site.badCondition "missing `condition`"
  | some reference =>
    let field ← resolveSibling fields site reference
    if f.cases.isEmpty then site.badCondition "no cases"
    let cases ← resolveCases tables site [] f.cases
    return ⟨field, cases⟩

/-! ## Fields and tables -/

def resolveField (tables : List TableDecl) (table : String) (fields : List FieldDecl)
    (f : FieldDecl) : Except SchemaError Field := do
  let site : Site := ⟨table, f.name⟩
  let arity ← resolveArity fields site f.count
  if f.luaType = .conditional then
    if f.count.isSome then site.badCondition "conditional fields hold a single value"
    let condition ← resolveCondition tables fields site f
    return ⟨f.name, f.effectiveTag, f.luaType, none, arity, some condition⟩
  else
    if f.condition.isSome ∨ !f.cases.isEmpty then
      site.badCondition "only conditional fields take a condition"
    match f.type with
    | none => throw (.missingType table f.name)
    | some text =>
      let type ← resolveType tables site text
      checkCompatible site f.luaType type arity
      return ⟨f.name, f.effectiveTag, f.luaType, some type, arity, none⟩

/-- The name of the function that makes records, which no field may have. -/
def constructorName : String := "new"

/-- Checks the names and tags of the fields of a table, of which `earlier` have been seen. -/
def checkFieldNames (table : String) (earlier : List FieldDecl) :
    List FieldDecl → Except SchemaError Unit
  | [] => .ok ()
  | f :: rest =>
    if !isName f.name then .error (.invalidName s!"{table}.{f.name}")
    else if f.name = constructorName then .error (.reservedName table f.name)
    else if earlier.any (·.name = f.name) then .error (.duplicateField table f.name)
    else if earlier.any (·.effectiveTag = f.effectiveTag) then
      .error (.duplicateField table f.name)
    else checkFieldNames table (f :: earlier) rest

def checkSetters (table : String) (fields : List FieldDecl) : Except SchemaError Unit :=
  match fields.find? fun f => fields.any (·.name = setterName f.name) with
  | some f => .error (.reservedName table (setterName f.name))
  | none => .ok ()

def resolveTable (tables : List TableDecl) (origin : Origin) (t : TableDecl) :
    Except SchemaError Table := do
  checkFieldNames t.name [] t.fields
  checkSetters t.name t.fields
  let fields ← t.fields.mapM (resolveField tables t.name t.fields)
  return ⟨t.tag, t.name, origin, fields⟩

def checkTableNames (earlier : List TableDecl) : List TableDecl → Except SchemaError Unit
  | [] => .ok ()
  | t :: rest =>
    if !isName t.name then .error (.invalidName t.name)
    else if earlier.any (·.name = t.name) then .error (.duplicateTable t.name)
    else if earlier.any (·.tag = t.tag) then .error (.duplicateTable t.tag)
    else checkTableNames (t :: earlier) rest

def TableSet.ofDeclarations (d : Declarations) : Except SchemaError TableSet := do
  let tables := d.tables.map (·.2)
  checkTableNames [] tables
  return ⟨← d.tables.mapM fun (origin, t) => resolveTable tables origin t⟩

end RecordTables
