import RecordTables.Text.Blank

/-!
Log lines and the levels that choose among them.

A level's place in the list of levels is its rank; a threshold shows the entries whose level ranks
no higher than its own, and the lowest threshold shows none.
-/

namespace RecordTables
namespace Log

inductive Level where
  | error
  | warn
  | info
  | debug
  | trace
  deriving DecidableEq, Repr

def Level.rank : Level → Nat
  | .error => 1
  | .warn => 2
  | .info => 3
  | .debug => 4
  | .trace => 5

def Level.name : Level → String
  | .error => "ERROR"
  | .warn => "WARN"
  | .info => "INFO"
  | .debug => "DEBUG"
  | .trace => "TRACE"

/-- The least important level that is shown, if any is. -/
inductive Threshold where
  | off
  | upTo (level : Level)
  deriving DecidableEq, Repr

namespace Threshold

def name : Threshold → String
  | .off => "OFF"
  | .upTo level => level.name

def all : List Threshold :=
  [.off, .upTo .error, .upTo .warn, .upTo .info, .upTo .debug, .upTo .trace]

/-- The threshold of a name, in any mixture of cases and with blanks around it. -/
def ofName? (text : String) : Option Threshold :=
  let letters := (Text.trim text.toList).map Char.toUpper
  all.find? (·.name.toList = letters)

def shows : Threshold → Level → Bool
  | .off, _ => false
  | .upTo most, level => level.rank ≤ most.rank

/-- The threshold of the environment variable `WASMTAB_LOG`: warnings unless it names another. -/
def ofEnvironment (setting : Option String) : Threshold :=
  (setting.bind ofName?).getD (.upTo .warn)

end Threshold

structure Entry where
  level : Level
  text : String
  deriving DecidableEq, Repr

def Entry.line (e : Entry) : String := s!"[wasmtab] {e.level.name}: {e.text}"

def lines (threshold : Threshold) (entries : List Entry) : List String :=
  (entries.filter fun e => threshold.shows e.level).map Entry.line

end Log
end RecordTables
