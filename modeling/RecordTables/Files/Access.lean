/-!
Access to files.

What a program needs of the files around it is two operations, given as a value, so that the same
program works on the files of a machine and on a file system that is only described.
-/

namespace RecordTables

inductive FileFault where
  | notFound
  | notDirectory
  | isDirectory
  | nameTooLong
  | noSpace
  | notText
  | other (text : String)
  deriving DecidableEq, Repr

def FileFault.message : FileFault → String
  | .notFound => "No such file or directory (os error 2)"
  | .notDirectory => "Not a directory (os error 20)"
  | .isDirectory => "Is a directory (os error 21)"
  | .nameTooLong => "File name too long (os error 36)"
  | .noSpace => "No space left on device (os error 28)"
  | .notText => "stream did not contain valid UTF-8"
  | .other text => text

/-- The bytes of the file at a path, and a new text for the file at a path. -/
structure FileAccess (m : Type → Type) where
  read : String → m (Except FileFault (List UInt8))
  write : String → String → m (Except FileFault Unit)

end RecordTables
