/-!
Sets of characters given by ranges of code points.

A property of the Unicode standard is a list of closed ranges in rising order.  `covers` looks a
character up; it stops at the first range that ends at or above the code point, so the order of the
list matters for the answer as well as for the cost.
-/

namespace RecordTables
namespace Text

/-- The code points from `first` to `last`, both included. -/
structure CharRange where
  first : Nat
  last : Nat
  deriving DecidableEq, Repr

def covers : List CharRange → Nat → Bool
  | [], _ => false
  | range :: ranges, code =>
    if code ≤ range.last then range.first ≤ code else covers ranges code

end Text
end RecordTables
