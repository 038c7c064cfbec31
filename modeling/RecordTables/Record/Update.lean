import RecordTables.Record.Check

/-!
Setting a field of a record.

What is given is checked first, against the record as it is; only then is the field set.  When a
selector changes, each conditional field that it rules is looked at again: a value that the newly
chosen case would not take is dropped, and any other value stays as it is.
-/

namespace RecordTables

/-- The contents of a record after a field was set, and the fields that lost their value by it. -/
structure Update where
  values : FieldValues
  cleared : List String
  deriving DecidableEq, Repr

/-- The form in which a field stores what it is set to.  Nil is refused where the field always holds
something, and a sequence that is not as long as its count says is refused as well. -/
def storedForm (names : RecordNames) (t : Table) (f : Field) (values : FieldValues) (c : Content) :
    Except Refusal Content :=
  if c.isNil then
    match f.luaType with
    | .integer | .number | .boolean => .error (.nilValue (t.place f))
    | _ => .ok .nil
  else if f.luaType = .conditional then
    (checkConditional names t f values c).map .single
  else
    match checkField names t f c with
    | .error refusal => .error refusal
    | .ok (.sequence items) => (checkCount t f values items.length).map fun _ => .sequence items
    | .ok content => .ok content

def Content.plainInteger? : Content → Option Int
  | .single (.integer i) => some i.toInt
  | _ => none

def keepsValue (names : RecordNames) (t : Table) (f : Field) (condition : Condition)
    (selector : Option Int) (c : Content) : Bool :=
  match selector.bind condition.case? with
  | none => false
  | some choice => (checkSingle names (t.place f) choice.luaType choice.type c).isOk

/-- Drops the values of the conditional fields among those that are left which the selector at
`index` no longer allows. -/
def clearStale (names : RecordNames) (t : Table) (index : Nat) (selector : Option Int) :
    List Field → Update → Update
  | [], update => update
  | f :: fields, update =>
    let current := update.values.get f.name
    match f.condition with
    | none => clearStale names t index selector fields update
    | some condition =>
      if condition.field ≠ index ∨ current.isNil ∨
          keepsValue names t f condition selector current then
        clearStale names t index selector fields update
      else
        clearStale names t index selector fields
          ⟨update.values.set f.name .nil, update.cleared ++ [f.name]⟩

def sameInteger (a b : Content) : Bool :=
  a.plainInteger?.isSome && a.plainInteger? = b.plainInteger?

def setField (names : RecordNames) (t : Table) (index : Nat) (values : FieldValues) (c : Content) :
    Except Refusal Update :=
  match t.fieldAt index with
  | .error refusal => .error refusal
  | .ok f =>
    match storedForm names t f values c with
    | .error refusal => .error refusal
    | .ok content =>
      let updated := values.set f.name content
      if sameInteger (values.get f.name) content then .ok ⟨updated, []⟩
      else .ok (clearStale names t index content.plainInteger? t.fields ⟨updated, []⟩)

def getField (t : Table) (index : Nat) (values : FieldValues) : Except Refusal Content :=
  (t.fieldAt index).map fun f => values.get f.name

end RecordTables
