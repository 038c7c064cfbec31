import RecordTables.Files.Access

/-!
Paths.

A path as text is a row of names between slashes.  It begins at the root if a slash comes first, and
ends in a directory if a slash comes last.
-/

namespace RecordTables

/-- The names that lead from the root to an entry. -/
abbrev Path : Type := List String

/-- A path as text: its names, and whether a slash comes before or after all of them. -/
structure PathText where
  names : List String
  isAbsolute : Bool
  isClosed : Bool
  deriving DecidableEq, Repr

namespace PathText

def parts : List Char → List (List Char)
  | [] => [[]]
  | c :: cs =>
    if c = '/' then [] :: parts cs
    else match parts cs with
      | [] => [[c]]
      | p :: ps => (c :: p) :: ps

def ofString (text : String) : PathText where
  names := ((parts text.toList).filter (· ≠ [])).map String.ofList
  isAbsolute := text.toList.head? = some '/'
  isClosed := text.toList.getLast? = some '/'

def sizeLimit : Nat := 4096

def nameLimit : Nat := 255

/-- The path that a text is.  The empty text is none, and neither is one that is too long. -/
def read (text : String) : Except FileFault PathText :=
  if text.isEmpty then .error .notFound
  else if sizeLimit ≤ text.utf8ByteSize then .error .nameTooLong
  else .ok (ofString text)

end PathText
end RecordTables
