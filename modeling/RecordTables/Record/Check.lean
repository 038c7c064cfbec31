import RecordTables.Record.Content
import RecordTables.Record.Refusal

/-!
Checking what is given for a field.

Each function takes a content and gives the form in which a field stores it, or refuses it.  The
parameter `names` tells the table of every record that still exists; nothing else of the records
matters here.
-/

namespace RecordTables

abbrev RecordNames : Type := RecordRef → Option String

/-- What a field holds before anything is given for it: a zero, where its type cannot hold nil. -/
def Field.default (f : Field) : Content :=
  match f.arity, f.luaType with
  | .one, .integer => .single (.integer 0)
  | .one, .number => .single (.float .zero)
  | .one, .boolean => .single (.boolean false)
  | _, _ => .nil

def ValueType.bounds? : ValueType → Option (Int × Int)
  | .scalar s => s.bounds?
  | _ => none

/-- The integer that a content stands for: itself, the value of a floating point number without a
fraction, or, if asked for, zero and one for the booleans. -/
def Content.integer? (booleans : Bool) : Content → Option Int64
  | .single (.integer i) => some i
  | .single (.float x) => Value.castInteger? x
  | .single (.boolean b) => if booleans then some (if b then 1 else 0) else none
  | _ => none

def Place.refuse {α : Type} (place : Place) (expected : String) (c : Content) : Except Refusal α :=
  .error (.wrongType place expected c.typeName)

def checkRecord (names : RecordNames) (place : Place) (expected : String) (c : Content) :
    Except Refusal Value :=
  match c with
  | .single (.record r) =>
    match names r with
    | some found =>
      if found = expected then .ok (.record r) else .error (.wrongType place expected found)
    | none => place.refuse expected c
  | c => place.refuse expected c

def checkInteger (place : Place) (type : ValueType) (c : Content) : Except Refusal Value :=
  match c.integer? (type = .scalar .bool) with
  | none => place.refuse "integer" c
  | some i =>
    match type.bounds? with
    | none => .ok (.integer i)
    | some (low, high) =>
      if i.toInt < low ∨ high < i.toInt then
        .error (.outOfRange place i.toInt type.describe)
      else .ok (.integer i)

def checkSingle (names : RecordNames) (place : Place) (luaType : LuaType) (type : ValueType)
    (c : Content) : Except Refusal Value :=
  match luaType with
  | .integer => checkInteger place type c
  | .number =>
    match c with
    | .single (.integer i) => .ok (.float (.ofInt i.toInt))
    | .single (.float x) => .ok (.float x)
    | c => place.refuse "number" c
  | .string =>
    match c with
    | .single (.string bytes) => .ok (.string bytes)
    | c => place.refuse "string" c
  | .boolean =>
    match c with
    | .single (.boolean b) => .ok (.boolean b)
    | c => place.refuse "boolean" c
  | .lightUserData =>
    match c with
    | .single (.light address) => .ok (.light address)
    | .single .nil => .ok .nil
    | c => place.refuse "lightuserdata" c
  | .table =>
    match type with
    | .table name => checkRecord names place name c
    | type => .error (.noReference place type.describe c.typeName)
  | .conditional => .error (.nestedConditional place)

/-- An item of a sequence.  A scalar has the representation that is its own there. -/
def checkItem (names : RecordNames) (place : Place) (type : ValueType) (v : Value) :
    Except Refusal Value :=
  match type with
  | .scalar s => checkSingle names place s.itemType type (.single v)
  | .table name => checkRecord names place name (.single v)
  | .foreign name => .error (.foreignItem place name v.typeName)

def checkItems (names : RecordNames) (place : Place) (type : ValueType) (index : Nat) :
    List Value → Except Refusal (List Value)
  | [] => .ok []
  | v :: rest => do
    let v ← checkItem names (place.at index) type v
    let rest ← checkItems names place type (index + 1) rest
    return v :: rest

def checkSequence (names : RecordNames) (place : Place) (arity : Arity) (type : ValueType) :
    Content → Except Refusal (List Value)
  | .sequence items =>
    match arity with
    | .fixed n =>
      if items.length = n then checkItems names place type 1 items
      else .error (.wrongLength place n items.length)
    | _ => checkItems names place type 1 items
  | c => place.refuse "table" c

def checkField (names : RecordNames) (t : Table) (f : Field) (c : Content) :
    Except Refusal Content :=
  match f.type with
  | none => .error (.untyped (t.place f))
  | some type =>
    if f.arity.isSequence then
      (checkSequence names (t.place f) f.arity type c).map .sequence
    else (checkSingle names (t.place f) f.luaType type c).map .single

def Table.fieldAt (t : Table) (index : Nat) : Except Refusal Field :=
  match t.fields[index]? with
  | some f => .ok f
  | none => .error (.noField t.name index)

def FieldValues.integer? (values : FieldValues) (name : String) : Except Refusal (Option Int) :=
  match values.get name with
  | .single .nil => .ok none
  | .single v =>
    match v.readInteger with
    | .ok n => .ok (some n)
    | .error reason => .error (.noInteger reason)
  | .sequence _ => .error (.noInteger ⟨"table", "expected number or string coercible to number"⟩)

/-- Checks that a sequence for a field is as long as its count says.  A field without a count takes
any length. -/
def checkCount (t : Table) (f : Field) (values : FieldValues) (length : Nat) :
    Except Refusal Unit :=
  match f.arity with
  | .counted index => do
    let counter ← t.fieldAt index
    let count := (← values.integer? counter.name).getD 0
    if count = length then return ()
    else throw (.countMismatch (t.place f) counter.name count length)
  | _ => .ok ()

/-- A content for a conditional field, under the selector that the record holds. -/
def checkConditional (names : RecordNames) (t : Table) (f : Field) (values : FieldValues)
    (c : Content) : Except Refusal Value :=
  match f.condition with
  | none => .error (.unconditioned (t.place f))
  | some condition => do
    let selector ← t.fieldAt condition.field
    match ← values.integer? selector.name with
    | none => throw (.selectorUnset (t.place f) selector.name)
    | some n =>
      match condition.case? n with
      | none => throw (.noCase (t.place f) selector.name n)
      | some choice => checkSingle names (t.place f) choice.luaType choice.type c

end RecordTables
