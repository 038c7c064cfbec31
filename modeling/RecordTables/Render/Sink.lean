import RecordTables.Text.Utf8

/-!
Writing text piece by piece.

A `Target` takes strings one after the other, and may refuse one.  What writes a text ends with the
first string that is refused.  A string never is refused; a `Sink` takes bytes while it has room for
them, and what does not fit is taken as far as it does.
-/

namespace RecordTables
namespace Render

/-- A place for bytes: the room that is left and what has been received. -/
structure Sink where
  room : Nat
  received : List UInt8

namespace Sink

def withRoom (n : Nat) : Sink := ⟨n, []⟩

/-- Puts bytes into a sink, and tells whether all of them went in. -/
def put (s : Sink) (bytes : List UInt8) : Bool × Sink :=
  (bytes.length ≤ s.room, ⟨s.room - bytes.length, s.received ++ bytes.take s.room⟩)

end Sink

/-- What text can be written to.  The flag tells whether all of the string was taken. -/
class Target (σ : Type) where
  put : String → σ → Bool × σ

instance : Target String := ⟨fun text out => (true, out ++ text)⟩

instance : Target Sink := ⟨fun text s => s.put (Text.bytesOf text)⟩

abbrev Writing (σ : Type) : Type → Type := ExceptT Unit (StateM σ)

section

variable {σ : Type} [Target σ]

def put (text : String) : Writing σ Unit := do
  let (taken, out) := Target.put text (← get)
  set out
  unless taken do throw ()

def putAll : List String → Writing σ Unit
  | [] => pure ()
  | piece :: rest => do
    put piece
    putAll rest

def putLine (pieces : List String) : Writing σ Unit := putAll (pieces ++ ["\n"])

end

def joined (fragments : List String) : String := String.join fragments

end Render
end RecordTables
