import RecordTables.Record.Check

/-!
Making the contents of a new record from arguments in field order.

The fields are filled in three passes.  The first takes the arguments of all fields but the
conditional ones, and puts a default where none is given.  The second compares each sequence with
its count, and fills in a count that was not given.  The third takes the arguments of the
conditional fields, whose selectors then hold their final values.
-/

namespace RecordTables

def argument (args : List Content) (index : Nat) : Content := args.getD index .nil

/-- The content of a field that is not conditional: its argument, or its default. -/
def initialContent (names : RecordNames) (t : Table) (f : Field) (arg : Content) :
    Except Refusal Content :=
  if arg.isNil then .ok f.default else checkField names t f arg

def fillPlain (names : RecordNames) (t : Table) :
    List Field → List Content → FieldValues → Except Refusal FieldValues
  | [], _, values => .ok values
  | f :: fields, args, values =>
    if f.luaType = .conditional then fillPlain names t fields args.tail values
    else
      match initialContent names t f (args.headD .nil) with
      | .error refusal => .error refusal
      | .ok content => fillPlain names t fields args.tail (values.set f.name content)

/-- The fields among those that are left which the first pass comes to: all of them, or those up to
the first whose argument is refused. -/
def reached (names : RecordNames) (t : Table) : List Field → List Content → List Field
  | [], _ => []
  | f :: fields, args =>
    if f.luaType = .conditional then f :: reached names t fields args.tail
    else
      match initialContent names t f (args.headD .nil) with
      | .error _ => [f]
      | .ok _ => f :: reached names t fields args.tail

/-- The second pass, over the fields that are left.  `derived` are the counts filled in so far, and
a count is known if it was given or filled in. -/
def fillCounts (names : RecordNames) (t : Table) (args : List Content) :
    List Field → List Nat → FieldValues → Except Refusal FieldValues
  | [], _, values => .ok values
  | f :: fields, derived, values =>
    match f.arity, values.get f.name with
    | .counted index, .sequence items =>
      if !(argument args index).isNil ∨ index ∈ derived then
        match checkCount t f values items.length with
        | .error refusal => .error refusal
        | .ok () => fillCounts names t args fields derived values
      else
        match t.fieldAt index with
        | .error refusal => .error refusal
        | .ok counter =>
          match checkField names t counter (.single (.integer (Int64.ofNat items.length))) with
          | .error refusal => .error refusal
          | .ok count =>
            fillCounts names t args fields (index :: derived) (values.set counter.name count)
    | _, _ => fillCounts names t args fields derived values

def fillConditional (names : RecordNames) (t : Table) :
    List Field → List Content → FieldValues → Except Refusal FieldValues
  | [], _, values => .ok values
  | f :: fields, args, values =>
    if f.luaType = .conditional ∧ !(args.headD .nil).isNil then
      match checkConditional names t f values (args.headD .nil) with
      | .error refusal => .error refusal
      | .ok v => fillConditional names t fields args.tail (values.set f.name (.single v))
    else fillConditional names t fields args.tail values

/-- The contents of a new record of a table.  Arguments beyond the last field count for nothing. -/
def construct (names : RecordNames) (t : Table) (args : List Content) :
    Except Refusal FieldValues := do
  let values ← fillPlain names t t.fields args .empty
  let values ← fillCounts names t args t.fields [] values
  fillConditional names t t.fields args values

end RecordTables
