import RecordTables.Json.Numeral

/-!
The grammar of JSON.

A `Tree` is a JSON value with the digits of its numbers, and the members of its objects in the order
and with the repetitions in which they stand.  `Tree.Spelled t text rest` says that `text` is blanks,
then a spelling of `t`, then `rest`; one tree has many spellings, by blanks and by escapes.  Words,
numbers and strings have no blanks inside, so what spells them is a list of characters alone.

This is the text of the standard, with two remarks.  A character from U+0000 to U+001F stands in a
string only as an escape, and half of a surrogate pair is no character.  How deep values may nest is
not limited here.
-/

namespace RecordTables
namespace Json

/-! ## Blanks and numbers -/

/-- The text is blanks and then the rest. -/
inductive Blanks : List Char → List Char → Prop
  | none {rest : List Char} : Blanks rest rest
  | more {c : Char} {text rest : List Char} (blank : c ∈ [' ', '\t', '\n', '\r'])
      (h : Blanks text rest) : Blanks (c :: text) rest

def IsDigits (digits : List Char) : Prop := digits ≠ [] ∧ ∀ c ∈ digits, c.isDigit

/-- Digits of an integer part, which has no zero in front. -/
def IsWhole (digits : List Char) : Prop :=
  IsDigits digits ∧ (digits.head? = some '0' → digits = ['0'])

inductive FractionSpelled : Option (List Char) → List Char → Prop
  | none : FractionSpelled .none []
  | some {digits : List Char} (h : IsDigits digits) : FractionSpelled (.some digits) ('.' :: digits)

inductive SignSpelled : Bool → List Char → Prop
  | none : SignSpelled false []
  | plus : SignSpelled false ['+']
  | minus : SignSpelled true ['-']

inductive ExponentSpelled : Option Exponent → List Char → Prop
  | none : ExponentSpelled .none []
  | some {mark : Char} {sign : List Char} {e : Exponent} (hm : mark ∈ ['e', 'E'])
      (hs : SignSpelled e.negative sign) (hd : IsDigits e.digits) :
      ExponentSpelled (.some e) (mark :: (sign ++ e.digits))

/-- The characters spell the literal. -/
inductive Literal.Spelled (l : Literal) : List Char → Prop
  | mk {fraction exponent : List Char} (hw : IsWhole l.whole)
      (hf : FractionSpelled l.fraction fraction) (he : ExponentSpelled l.exponent exponent) :
      l.Spelled ((if l.negative then ['-'] else []) ++ (l.whole ++ (fraction ++ exponent)))

/-! ## Strings -/

/-- The letters that may follow a backslash, with the characters that they stand for. -/
def escapes : List (Char × Char) :=
  [('"', '"'), ('\\', '\\'), ('/', '/'), ('b', '\x08'), ('f', '\x0c'), ('n', '\n'), ('r', '\r'),
    ('t', '\t')]

/-- The character is the hexadecimal digit of a number below sixteen, in either case. -/
def IsHexDigit (c : Char) (n : Nat) : Prop :=
  n < 16 ∧ (c = n.digitChar ∨ c = n.digitChar.toUpper)

/-- Four hexadecimal digits write a number. -/
inductive CodeUnit : Nat → List Char → Prop
  | mk {a b c d : Char} {i j k l : Nat} (ha : IsHexDigit a i) (hb : IsHexDigit b j)
      (hc : IsHexDigit c k) (hd : IsHexDigit d l) :
      CodeUnit (i * 0x1000 + j * 0x100 + k * 0x10 + l) [a, b, c, d]

/-- The ways to spell one character of a string. -/
inductive CharacterSpelled (c : Char) : List Char → Prop
  | plain (h : 0x20 ≤ c.toNat) (hq : c ≠ '"') (hb : c ≠ '\\') : CharacterSpelled c [c]
  | escape {e : Char} (h : (e, c) ∈ escapes) : CharacterSpelled c ['\\', e]
  | unit {digits : List Char} (h : CodeUnit c.toNat digits) :
      CharacterSpelled c ('\\' :: 'u' :: digits)
  | pair {lead trail : Nat} {digits digits' : List Char}
      (hl : CodeUnit lead digits) (leading : 0xD800 ≤ lead ∧ lead < 0xDC00)
      (ht : CodeUnit trail digits') (trailing : 0xDC00 ≤ trail ∧ trail < 0xE000)
      (h : c.toNat = 0x10000 + (lead - 0xD800) * 0x400 + (trail - 0xDC00)) :
      CharacterSpelled c ('\\' :: 'u' :: (digits ++ '\\' :: 'u' :: digits'))

/-- The characters of a string up to its closing quote, and that quote. -/
inductive CharactersSpelled : List Char → List Char → Prop
  | close : CharactersSpelled [] ['"']
  | more {c : Char} {cs front body : List Char} (h : CharacterSpelled c front)
      (h' : CharactersSpelled cs body) : CharactersSpelled (c :: cs) (front ++ body)

/-- A string between its quotes. -/
inductive StringSpelled (s : String) : List Char → Prop
  | mk {body : List Char} (h : CharactersSpelled s.toList body) : StringSpelled s ('"' :: body)

/-! ## Values -/

/-- A JSON value as it is written. -/
inductive Tree where
  | null
  | boolean (b : Bool)
  | number (l : Literal)
  | string (s : String)
  | list (items : List Tree)
  | object (members : List (String × Tree))

/-- What follows an item of a list or an object: more items, each after a comma, and the end. -/
inductive Following {α : Type} (spelled : α → List Char → List Char → Prop) (close : Char) :
    List α → List Char → List Char → Prop
  | close {text rest : List Char} (h : Blanks text (close :: rest)) :
      Following spelled close [] text rest
  | more {a : α} {as : List α} {text body after rest : List Char} (h : Blanks text (',' :: body))
      (ha : spelled a body after) (has : Following spelled close as after rest) :
      Following spelled close (a :: as) text rest

/-- A key, a colon and a value. -/
inductive MemberSpelled (spelled : Tree → List Char → List Char → Prop) :
    String × Tree → List Char → List Char → Prop
  | mk {key : String} {t : Tree} {text spelling body after rest : List Char}
      (h : Blanks text (spelling ++ body)) (hk : StringSpelled key spelling)
      (hc : Blanks body (':' :: after)) (ht : spelled t after rest) :
      MemberSpelled spelled (key, t) text rest

/-- The text is a spelling of the value, with blanks in front, and the rest. -/
inductive Tree.Spelled : Tree → List Char → List Char → Prop
  | null {text rest : List Char} (h : Blanks text ('n' :: 'u' :: 'l' :: 'l' :: rest)) :
      Spelled .null text rest
  | true {text rest : List Char} (h : Blanks text ('t' :: 'r' :: 'u' :: 'e' :: rest)) :
      Spelled (.boolean Bool.true) text rest
  | false {text rest : List Char} (h : Blanks text ('f' :: 'a' :: 'l' :: 's' :: 'e' :: rest)) :
      Spelled (.boolean Bool.false) text rest
  | number {l : Literal} {text spelling rest : List Char} (h : Blanks text (spelling ++ rest))
      (hl : l.Spelled spelling) : Spelled (.number l) text rest
  | string {s : String} {text spelling rest : List Char} (h : Blanks text (spelling ++ rest))
      (hs : StringSpelled s spelling) : Spelled (.string s) text rest
  | emptyList {text body rest : List Char} (h : Blanks text ('[' :: body))
      (hc : Blanks body (']' :: rest)) : Spelled (.list []) text rest
  | list {t : Tree} {ts : List Tree} {text body after rest : List Char}
      (h : Blanks text ('[' :: body)) (ht : Spelled t body after)
      (hts : Following Spelled ']' ts after rest) : Spelled (.list (t :: ts)) text rest
  | emptyObject {text body rest : List Char} (h : Blanks text ('\x7b' :: body))
      (hc : Blanks body ('\x7d' :: rest)) : Spelled (.object []) text rest
  | object {m : String × Tree} {ms : List (String × Tree)} {text body after rest : List Char}
      (h : Blanks text ('\x7b' :: body)) (hm : MemberSpelled Spelled m body after)
      (hms : Following (MemberSpelled Spelled) '\x7d' ms after rest) :
      Spelled (.object (m :: ms)) text rest

end Json
end RecordTables
