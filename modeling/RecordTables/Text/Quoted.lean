import RecordTables.Text.Printable

/-!
Quoted text.

A text is put between double quotes.  The quote, the backslash and four control characters have an
escape of two characters; every other character that cannot be shown, or that would join the
character before it, is written by its code point in hexadecimal between braces.
-/

namespace RecordTables
namespace Text
namespace Quoted

def encodeChar (c : Char) : List Char :=
  if c = '\x00' then ['\\', '0']
  else if c = '\t' then ['\\', 't']
  else if c = '\n' then ['\\', 'n']
  else if c = '\r' then ['\\', 'r']
  else if c = '"' then ['\\', '"']
  else if c = '\\' then ['\\', '\\']
  else if isPrintable c && !isExtender c then [c]
  else ['\\', 'u', '{'] ++ Nat.toDigits 16 c.toNat ++ ['}']

def encode (text : List Char) : List Char :=
  '"' :: text.flatMap encodeChar ++ ['"']

def quote (text : List Char) : String := String.ofList (encode text)

end Quoted
end Text
end RecordTables
