import RecordTables.Json.Numeral

/-!
The tokens of a JSON text.

`Token.scan` cuts a text into tokens and drops the blanks between them.  It goes on until the text
ends or a token is faulty; the fault then stands in the list as the last token, because whether it
is the first fault of the document depends on what the tokens before it mean.  The kinds of faulty
tokens are those that a reader has to tell apart: a string that is broken off, a number or a word
that is, and a character with which no token starts.
-/

namespace RecordTables
namespace Json

/-- A token.  `brokenString` and `brokenLiteral` begin like a string, or like a number or one of the
three words, and have the given fault; `stray` is a character that begins no token. -/
inductive Token where
  | openBrace
  | closeBrace
  | openBracket
  | closeBracket
  | comma
  | colon
  | null
  | boolean (b : Bool)
  | number (n : Numeral)
  | string (text : String)
  | brokenString (fault : Fault)
  | brokenLiteral (fault : Fault)
  | stray
  deriving DecidableEq, Repr

namespace Token

/-- The characters that may stand between tokens. -/
def isBlank (c : Char) : Bool := c = ' ' || c = '\t' || c = '\n' || c = '\r'

def hexDigit? (c : Char) : Option Nat :=
  if c.isDigit then some (c.toNat - '0'.toNat)
  else if 'a' ≤ c ∧ c ≤ 'f' then some (c.toNat - 'a'.toNat + 10)
  else if 'A' ≤ c ∧ c ≤ 'F' then some (c.toNat - 'A'.toNat + 10)
  else none

def byteLength (text : List Char) : Nat := text.foldl (fun n c => n + c.utf8Size) 0

/-- What is wrong with a text that does not begin with four hexadecimal digits: it ends too early
where fewer than four bytes are left. -/
def hexFault (text : List Char) : Fault :=
  if byteLength text < 4 then .endInString else .invalidEscape

def hexValue? (a b c d : Char) : Option Nat := do
  return (((← hexDigit? a) * 16 + (← hexDigit? b)) * 16 + (← hexDigit? c)) * 16 + (← hexDigit? d)

def readHex : List Char → Except Fault (Nat × List Char)
  | a :: b :: c :: d :: rest =>
    match hexValue? a b c d with
    | some n => .ok (n, rest)
    | none => .error (hexFault (a :: b :: c :: d :: rest))
  | text => .error (hexFault text)

/-- Whether a code unit is the second of a pair. -/
def isTrailing (n : Nat) : Bool := 0xDC00 ≤ n ∧ n ≤ 0xDFFF

def isLeading (n : Nat) : Bool := 0xD800 ≤ n ∧ n ≤ 0xDBFF

def pairChar (lead trail : Nat) : Char :=
  Char.ofNat ((lead - 0xD800) * 0x400 + (trail - 0xDC00) + 0x10000)

/-- The second escape of a pair, which has to be there and to be a trailing one. -/
def readTrailing (lead : Nat) : List Char → Except Fault (Char × List Char)
  | [] => .error .endInString
  | '\\' :: text =>
    match text with
    | [] => .error .endInString
    | 'u' :: rest =>
      match readHex rest with
      | .error fault => .error fault
      | .ok (trail, rest) =>
        if isTrailing trail then .ok (pairChar lead trail, rest) else .error .loneSurrogate
    | _ => .error .endOfHexEscape
  | _ => .error .endOfHexEscape

def readUnicode (text : List Char) : Except Fault (Char × List Char) :=
  match readHex text with
  | .error fault => .error fault
  | .ok (n, rest) =>
    if isTrailing n then .error .loneSurrogate
    else if isLeading n then readTrailing n rest
    else .ok (Char.ofNat n, rest)

def simpleEscape? (c : Char) : Option Char :=
  match c with
  | '"' => some '"'
  | '\\' => some '\\'
  | '/' => some '/'
  | 'b' => some '\x08'
  | 'f' => some '\x0c'
  | 'n' => some '\n'
  | 'r' => some '\r'
  | 't' => some '\t'
  | _ => none

def readEscape : List Char → Except Fault (Char × List Char)
  | [] => .error .endInString
  | 'u' :: rest => readUnicode rest
  | c :: rest =>
    match simpleEscape? c with
    | some c => .ok (c, rest)
    | none => .error .invalidEscape

theorem length_readHex {text rest : List Char} {n : Nat} (h : readHex text = .ok (n, rest)) :
    rest.length < text.length := by
  unfold readHex at h
  split at h
  · split at h
    · cases h; simp only [List.length_cons]; omega
    · cases h
  · cases h

theorem length_readTrailing {lead : Nat} {text rest : List Char} {c : Char}
    (h : readTrailing lead text = .ok (c, rest)) : rest.length < text.length := by
  unfold readTrailing at h
  split at h
  · cases h
  · split at h
    · cases h
    · split at h
      · cases h
      · next hx =>
        split at h
        · have := length_readHex hx
          rw [← (Prod.mk.inj (Except.ok.inj h)).2]
          simp only [List.length_cons]
          omega
        · cases h
    · cases h
  · cases h

theorem length_readUnicode {text rest : List Char} {c : Char}
    (h : readUnicode text = .ok (c, rest)) : rest.length < text.length := by
  unfold readUnicode at h
  cases hx : readHex text with
  | error fault => rw [hx] at h; cases h
  | ok r =>
    obtain ⟨n, body⟩ := r
    have h1 := length_readHex hx
    simp only [hx] at h
    split at h
    · cases h
    · split at h
      · exact Nat.lt_trans (length_readTrailing h) h1
      · rw [← (Prod.mk.inj (Except.ok.inj h)).2]
        exact h1

theorem length_readEscape {text rest : List Char} {c : Char} (h : readEscape text = .ok (c, rest)) :
    rest.length < text.length := by
  unfold readEscape at h
  split at h
  · cases h
  · exact Nat.lt_succ_of_lt (length_readUnicode h)
  · split at h
    · cases h; simp
    · cases h

/-- The rest of a string after its opening quote, and the text after its closing one.  `read` holds
the characters so far, last first. -/
def readString (read : List Char) : List Char → Except Fault (String × List Char)
  | [] => .error .endInString
  | '"' :: rest => .ok (String.ofList read.reverse, rest)
  | '\\' :: rest =>
    match h : readEscape rest with
    | .error fault => .error fault
    | .ok (c, rest') =>
      have := length_readEscape h
      readString (c :: read) rest'
  | c :: rest => if c.toNat < 0x20 then .error .controlCharacter else readString (c :: read) rest
termination_by text => text.length
decreasing_by
  all_goals simp only [List.length_cons]; omega

theorem length_readString {read text rest : List Char} {s : String}
    (h : readString read text = .ok (s, rest)) : rest.length < text.length := by
  fun_induction readString read text with
  | case1 => cases h
  | case2 => cases h; simp
  | case3 => cases h
  | case4 read body c r hr hlt ih =>
    have := ih h
    simp only [List.length_cons]
    omega
  | case5 => cases h
  | case6 => rename_i ih; exact Nat.lt_succ_of_lt (ih h)

def readWord : List Char → List Char → Except Fault (List Char)
  | [], rest => .ok rest
  | _ :: _, [] => .error .endInValue
  | c :: word, d :: rest => if c = d then readWord word rest else .error .expectedWord

theorem length_readWord {word text rest : List Char} (h : readWord word text = .ok rest) :
    rest.length ≤ text.length := by
  fun_induction readWord word text with
  | case1 => cases h; exact Nat.le_refl _
  | case2 => cases h
  | case3 => rename_i ih; exact Nat.le_succ_of_le (ih h)
  | case4 => cases h

def scan : List Char → List Token
  | [] => []
  | '{' :: rest => .openBrace :: scan rest
  | '}' :: rest => .closeBrace :: scan rest
  | '[' :: rest => .openBracket :: scan rest
  | ']' :: rest => .closeBracket :: scan rest
  | ',' :: rest => .comma :: scan rest
  | ':' :: rest => .colon :: scan rest
  | '"' :: rest =>
    match h : readString [] rest with
    | .error fault => [.brokenString fault]
    | .ok (s, rest') =>
      have := length_readString h
      .string s :: scan rest'
  | 'n' :: rest =>
    match h : readWord ['u', 'l', 'l'] rest with
    | .error fault => [.brokenLiteral fault]
    | .ok rest' =>
      have := length_readWord h
      .null :: scan rest'
  | 't' :: rest =>
    match h : readWord ['r', 'u', 'e'] rest with
    | .error fault => [.brokenLiteral fault]
    | .ok rest' =>
      have := length_readWord h
      .boolean true :: scan rest'
  | 'f' :: rest =>
    match h : readWord ['a', 'l', 's', 'e'] rest with
    | .error fault => [.brokenLiteral fault]
    | .ok rest' =>
      have := length_readWord h
      .boolean false :: scan rest'
  | c :: rest =>
    if isBlank c then scan rest
    else if c = '-' ∨ c.isDigit then
      match h : Literal.read (c :: rest) with
      | .error fault => [.brokenLiteral fault]
      | .ok (literal, rest') =>
        match literal.value? with
        | .error fault => [.brokenLiteral fault]
        | .ok n =>
          have := Literal.length_read h
          .number n :: scan rest'
    else [.stray]
termination_by text => text.length
decreasing_by
  all_goals simp only [List.length_cons] at *; omega

end Token
end Json
end RecordTables
