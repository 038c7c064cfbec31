import RecordTables.Document.Reader
import RecordTables.Schema.Resolution

/-!
Table sets from documents: reading, then resolution.
-/

namespace RecordTables

def TableSet.ofDocument (document : String) : Except SchemaError TableSet :=
  match Document.declarations document with
  | .error fault => .error (.malformed fault.message)
  | .ok d => TableSet.ofDeclarations d

end RecordTables
