import RecordTables.Text.CharRange

/-!
White space.

`isBlank` is the White_Space property of the Unicode standard.  `trim` drops such characters from
both ends of a text and keeps those inside it.
-/

namespace RecordTables
namespace Text

/-- The characters that the Unicode standard calls white space. -/
def blankRanges : List CharRange :=
  [⟨0x0009, 0x000d⟩, ⟨0x0020, 0x0020⟩, ⟨0x0085, 0x0085⟩, ⟨0x00a0, 0x00a0⟩, ⟨0x1680, 0x1680⟩,
   ⟨0x2000, 0x200a⟩, ⟨0x2028, 0x2029⟩, ⟨0x202f, 0x202f⟩, ⟨0x205f, 0x205f⟩, ⟨0x3000, 0x3000⟩]

def isBlank (c : Char) : Bool := covers blankRanges c.toNat

def trim (text : List Char) : List Char :=
  ((text.dropWhile isBlank).reverse.dropWhile isBlank).reverse

end Text
end RecordTables
