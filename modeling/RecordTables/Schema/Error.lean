/-!
Why declarations are no table set.

Each constructor names the rule that is broken and where; `message` is its wording.
-/

namespace RecordTables

/-- A broken rule.  `table` and `field` are names, and a `reason` says more in words. -/
inductive SchemaError where
  /-- The document does not write declarations. -/
  | malformed (reason : String)
  /-- A table name, or a `table.field`, that is no name. -/
  | invalidName (name : String)
  /-- A name or a tag that an earlier table has. -/
  | duplicateTable (name : String)
  /-- A name or a tag that an earlier field of the table has. -/
  | duplicateField (table field : String)
  /-- A field named like a function of the class. -/
  | reservedName (table field : String)
  /-- A field without a type that needs one. -/
  | missingType (table field : String)
  /-- A type that refers to no table. -/
  | unresolvedType (table field type : String)
  /-- A count or a condition that refers to no field. -/
  | unresolvedField (table field target : String)
  /-- A type that the field cannot hold. -/
  | incompatibleType (table field reason : String)
  /-- A condition that is missing, out of place or ill-formed. -/
  | invalidCondition (table field reason : String)
  deriving DecidableEq, Repr

def SchemaError.message : SchemaError → String
  | .malformed reason => s!"malformed table definitions: {reason}"
  | .invalidName name => s!"`{name}` is not a valid Lua name"
  | .duplicateTable name => s!"table `{name}` is defined twice"
  | .duplicateField table field => s!"{table}.{field} is defined twice"
  | .reservedName table field => s!"{table}.{field} collides with a generated accessor"
  | .missingType table field => s!"{table}.{field} has no type"
  | .unresolvedType table field type => s!"{table}.{field} refers to unknown table `{type}`"
  | .unresolvedField table field target => s!"{table}.{field} refers to unknown field `{target}`"
  | .incompatibleType table field reason => s!"{table}.{field}: {reason}"
  | .invalidCondition table field reason => s!"{table}.{field}: bad condition: {reason}"

end RecordTables
