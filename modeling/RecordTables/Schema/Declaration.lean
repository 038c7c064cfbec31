import RecordTables.Schema.Basic

/-!
Declarations of tables, as a document states them.

References are still texts here: a type or a count of the form `self::tag` points at a table or at a
field beside it by tag.  A field without a tag of its own goes by its name.
-/

namespace RecordTables

inductive CountDecl where
  | fixed (n : Nat)
  | named (text : String)
  deriving DecidableEq, Repr

structure CaseDecl where
  selector : Int
  type : String
  luaType : LuaType
  deriving DecidableEq, Repr

structure FieldDecl where
  name : String
  tag : Option String
  type : Option String
  luaType : LuaType
  count : Option CountDecl
  condition : Option String
  cases : List CaseDecl
  deriving DecidableEq, Repr

/-- The tag by which other fields refer to a field. -/
def FieldDecl.effectiveTag (f : FieldDecl) : String := f.tag.getD f.name

structure TableDecl where
  tag : String
  name : String
  fields : List FieldDecl
  deriving DecidableEq, Repr

structure Declarations where
  read : List TableDecl
  definition : List TableDecl
  deriving DecidableEq, Repr

/-- All declared tables: the definitions first, and each list in its order. -/
def Declarations.tables (d : Declarations) : List (Origin × TableDecl) :=
  d.definition.map (Origin.definition, ·) ++ d.read.map (Origin.read, ·)

end RecordTables
