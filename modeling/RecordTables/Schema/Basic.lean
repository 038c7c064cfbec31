/-!
Tables of typed record fields.

A `Table` describes the records of one class: its fields in order, and for each field how its value
is represented in Lua, what type it was declared with, and how many values it holds.  A conditional
field has one of several types, chosen by the value of an integer field beside it.  Fields refer to
their siblings by index, and to other tables by name.

Nothing here says which tables make sense; that is the matter of resolution, which builds a
`TableSet` from declarations.
-/

namespace RecordTables

/-- How the value of a field is represented in Lua. -/
inductive LuaType where
  | integer
  | number
  | string
  | boolean
  | lightUserData
  | table
  | conditional
  deriving DecidableEq, Repr

namespace LuaType

def name : LuaType → String
  | .integer => "integer"
  | .number => "number"
  | .string => "string"
  | .boolean => "boolean"
  | .lightUserData => "lightuserdata"
  | .table => "table"
  | .conditional => "conditional"

def all : List LuaType :=
  [.integer, .number, .string, .boolean, .lightUserData, .table, .conditional]

def ofName? (name : String) : Option LuaType := all.find? (·.name = name)

end LuaType

inductive ScalarType where
  | int8
  | uint8
  | int16
  | uint16
  | int32
  | uint32
  | int64
  | uint64
  | float
  | double
  | bool
  | uchar
  | schar
  | string
  deriving DecidableEq, Repr

namespace ScalarType

def name : ScalarType → String
  | .int8 => "int8"
  | .uint8 => "uint8"
  | .int16 => "int16"
  | .uint16 => "uint16"
  | .int32 => "int32"
  | .uint32 => "uint32"
  | .int64 => "int64"
  | .uint64 => "uint64"
  | .float => "float"
  | .double => "double"
  | .bool => "bool"
  | .uchar => "uchar"
  | .schar => "schar"
  | .string => "string"

def all : List ScalarType :=
  [.int8, .uint8, .int16, .uint16, .int32, .uint32, .int64, .uint64, .float, .double, .bool,
    .uchar, .schar, .string]

def ofName? (name : String) : Option ScalarType := all.find? (·.name = name)

/-- The least and the greatest integer of an integral type.  A Lua integer has 64 bits and a sign,
so the unsigned type of that width ends where Lua's integers do. -/
def bounds? : ScalarType → Option (Int × Int)
  | .int8 | .schar => some (-128, 127)
  | .uint8 | .uchar => some (0, 255)
  | .int16 => some (-32768, 32767)
  | .uint16 => some (0, 65535)
  | .int32 => some (-2147483648, 2147483647)
  | .uint32 => some (0, 4294967295)
  | .int64 => some (-9223372036854775808, 9223372036854775807)
  | .uint64 => some (0, 9223372036854775807)
  | .bool => some (0, 1)
  | .float | .double | .string => none

def isIntegral (s : ScalarType) : Bool := s.bounds?.isSome

def isNumeric (s : ScalarType) : Bool := s ≠ .string

/-- The representation of a value of this type inside a sequence. -/
def itemType : ScalarType → LuaType
  | .float | .double => .number
  | .string => .string
  | _ => .integer

end ScalarType

/-- The declared type of a field: a scalar, a record of the table of that name, or a type that is
known by name only. -/
inductive ValueType where
  | scalar (s : ScalarType)
  | table (name : String)
  | foreign (name : String)
  deriving DecidableEq, Repr

def ValueType.describe : ValueType → String
  | .scalar s => s.name
  | .table name => name
  | .foreign name => name

/-- The number of values that a field holds: one, a fixed number, as many as the integer field at
an index says, or any number. -/
inductive Arity where
  | one
  | fixed (n : Nat)
  | counted (field : Nat)
  | unbounded
  deriving DecidableEq, Repr

def Arity.isSequence (a : Arity) : Bool := a ≠ .one

/-- One type of a conditional field, and the selector value that chooses it. -/
structure Case where
  selector : Int
  luaType : LuaType
  type : ValueType
  deriving DecidableEq, Repr

/-- The types of a conditional field and the index of the integer field that chooses among them. -/
structure Condition where
  field : Nat
  cases : List Case
  deriving DecidableEq, Repr

def Condition.case? (c : Condition) (selector : Int) : Option Case :=
  c.cases.find? (·.selector = selector)

/-- A field of a table.  A conditional field has a condition in place of a declared type. -/
structure Field where
  name : String
  tag : String
  luaType : LuaType
  type : Option ValueType
  arity : Arity
  condition : Option Condition
  deriving DecidableEq, Repr

def setterName (field : String) : String := "set_" ++ field

/-- Which list of a document declares a table. -/
inductive Origin where
  | read
  | definition
  deriving DecidableEq, Repr

structure Table where
  tag : String
  name : String
  origin : Origin
  fields : List Field
  deriving DecidableEq, Repr

namespace Table

def field? (t : Table) (name : String) : Option Field := t.fields.find? (·.name = name)

def fieldIndex? (t : Table) (name : String) : Option Nat := t.fields.findIdx? (·.name = name)

end Table

structure TableSet where
  tables : List Table
  deriving DecidableEq, Repr

namespace TableSet

def table? (s : TableSet) (name : String) : Option Table := s.tables.find? (·.name = name)

def names (s : TableSet) : List String := s.tables.map (·.name)

def size (s : TableSet) : Nat := s.tables.length

end TableSet

end RecordTables
