import RecordTables.Dictionary
import RecordTables.Value

/-!
What the fields of a record hold.

A field holds a single value, nil standing for none, or a sequence of values.  An argument for a
field has the same form: a Lua table counts as the sequence of its items.  `FieldValues` holds the
contents of a record by field name, and is seen through `get`.
-/

namespace RecordTables

inductive Content where
  | single (v : Value)
  | sequence (items : List Value)
  deriving DecidableEq, Repr

namespace Content

def nil : Content := .single .nil

def isNil (c : Content) : Bool := c = nil

def typeName : Content → String
  | .single v => v.typeName
  | .sequence _ => "table"

end Content

abbrev FieldValues : Type := Dictionary String Content

namespace FieldValues

def get (values : FieldValues) (name : String) : Content := (values.find? name).getD .nil

def set (values : FieldValues) (name : String) (content : Content) : FieldValues :=
  values.insert name content

@[simp] theorem get_empty (name : String) : get Dictionary.empty name = .nil := rfl

@[simp] theorem get_set_self (values : FieldValues) (name : String) (content : Content) :
    get (values.set name content) name = content := by
  simp [get, set]

theorem get_set_of_ne (values : FieldValues) {name other : String} (h : other ≠ name)
    (content : Content) : get (values.set name content) other = get values other := by
  simp [get, set, Dictionary.find?_insert_of_ne values h]

end FieldValues
end RecordTables
