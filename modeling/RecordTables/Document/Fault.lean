import RecordTables.Json.Token
import RecordTables.Number.Decimal
import RecordTables.Text.Quoted

/-!
What can be wrong with a document of declarations.

A document can fail to be JSON, and JSON can fail to be a document.  The constructors name the
second kind of fault by its cause; `message` is the wording of both kinds.
-/

namespace RecordTables
namespace Document

/-- What stands in a document where something else belongs. -/
inductive Found where
  | null
  | boolean (b : Bool)
  | number (n : Json.Numeral)
  | string (text : String)
  | list
  | object
  deriving DecidableEq, Repr

/-- Numbers in messages: as few digits as read back, positional from `1e-5` up to `1e16`, and always
with a point or a power of ten, which has no zeros in front. -/
def numberLayout : Decimal.Layout where
  precision := .shortest .even
  bounds := some (-5, 15)
  powerDigits := 1
  point := true
  nan := "NaN"
  infinity := "inf"

def Found.describe : Found → String
  | .null => "null"
  | .boolean b => s!"boolean `{b}`"
  | .number (.natural n) => s!"integer `{n}`"
  | .number (.negative n) => s!"integer `-{n}`"
  | .number (.float x) => s!"floating point `{numberLayout.text x}`"
  | .string text => s!"string {Text.Quoted.quote text.toList}"
  | .list => "sequence"
  | .object => "map"

/-- A fault of a document.  `wrongType` and `wrongValue` name what belongs there, and
`wrongLength` a list of `length` members that lacks one it needs. -/
inductive Fault where
  | malformed (fault : Json.Fault)
  | wrongType (found : Found) (expected : String)
  | wrongValue (found : Found) (expected : String)
  | wrongLength (length : Nat) (expected : String) (members : Nat)
  | unknownField (name : String) (known : List String)
  | duplicateField (name : String)
  | missingField (name : String)
  | unknownVariant (name : String) (known : List String)
  | noCount
  deriving DecidableEq, Repr

def alternatives (names : List String) : String :=
  let quoted := names.map fun name => s!"`{name}`"
  match quoted with
  | [one] => one
  | [one, other] => s!"{one} or {other}"
  | _ => "one of " ++ String.intercalate ", " quoted

def Fault.message : Fault → String
  | .malformed fault => fault.message
  | .wrongType found expected => s!"invalid type: {found.describe}, expected {expected}"
  | .wrongValue found expected => s!"invalid value: {found.describe}, expected {expected}"
  | .wrongLength length expected members =>
    s!"invalid length {length}, expected {expected} with {members} elements"
  | .unknownField name known => s!"unknown field `{name}`, expected {alternatives known}"
  | .duplicateField name => s!"duplicate field `{name}`"
  | .missingField name => s!"missing field `{name}`"
  | .unknownVariant name known => s!"unknown variant `{name}`, expected {alternatives known}"
  | .noCount => "data did not match any variant of untagged enum RawCount"

end Document
end RecordTables
