import RecordTables.Document.Fault
import RecordTables.Schema.Declaration

/-!
Reading declarations from a document.

A reader takes one value off the front of a token list and knows what it is to be, so the first
fault that it meets is the first in reading order, whether the text is no JSON there or is JSON of
the wrong shape.  Every reader returns the tokens it leaves together with the fact that they are
fewer, and the loops over lists and objects end by that fact alone.

A set, a table, a field and a case are each an object of named members, or the list of these members
in their order.  `Shape` says which members there are, and `Shape.reader` reads both forms.
-/

namespace RecordTables
namespace Document

open Json (Token)

abbrev Rest (tokens : List Token) : Type := { rest : List Token // rest.length < tokens.length }

/-- A value off the front of a token list, or the first fault met. -/
abbrev Reading (α : Type) (tokens : List Token) : Type := Except Fault (α × Rest tokens)

abbrev Reader (α : Type) : Type := (tokens : List Token) → Reading α tokens

def malformed {α : Type} (fault : Json.Fault) : Except Fault α := .error (.malformed fault)

/-- The fault of a token list that does not begin with what belongs there. -/
def mismatch (expected : String) : List Token → Fault
  | [] => .malformed .endInValue
  | .null :: _ => .wrongType .null expected
  | .boolean b :: _ => .wrongType (.boolean b) expected
  | .number n :: _ => .wrongType (.number n) expected
  | .string text :: _ => .wrongType (.string text) expected
  | .openBracket :: _ => .wrongType .list expected
  | .openBrace :: _ => .wrongType .object expected
  | .brokenString fault :: _ => .malformed fault
  | .brokenLiteral fault :: _ => .malformed fault
  | _ :: _ => .malformed .expectedValue

def Reader.map {α β : Type} (f : α → β) (read : Reader α) : Reader β := fun tokens => do
  let (a, rest) ← read tokens
  return (f a, rest)

def text : Reader String
  | .string s :: rest => .ok (s, ⟨rest, by simp⟩)
  | tokens => .error (mismatch "a string" tokens)

/-- A value that may be absent, and is when it is null. -/
def optional {α : Type} (read : Reader α) : Reader (Option α)
  | .null :: rest => .ok (none, ⟨rest, by simp⟩)
  | tokens => read.map some tokens

def integer : Reader Int
  | .number (.natural n) :: rest =>
    if n < 0x8000000000000000 then .ok (n, ⟨rest, by simp⟩)
    else .error (.wrongValue (.number (.natural n)) "i64")
  | .number (.negative n) :: rest => .ok (-(n : Int), ⟨rest, by simp⟩)
  | tokens => .error (mismatch "i64" tokens)

def namedLuaType (name : String) : Except Fault LuaType :=
  match LuaType.ofName? name with
  | some t => .ok t
  | none => .error (.unknownVariant name (LuaType.all.map LuaType.name))

/-- The rest of an object with one member after its key: a null and a closing brace. -/
def emptyMember : List Token → Except Fault (List Token)
  | [] => malformed .endInObject
  | .colon :: .null :: [] => malformed .endInObject
  | .colon :: .null :: .closeBrace :: rest => .ok rest
  | .colon :: .null :: _ => malformed .expectedValue
  | .colon :: tokens => .error (mismatch "unit" tokens)
  | _ => malformed .expectedColon

theorem length_emptyMember {tokens rest : List Token} (h : emptyMember tokens = .ok rest) :
    rest.length < tokens.length := by
  unfold emptyMember at h
  split at h <;> cases h
  simp only [List.length_cons]
  omega

/-- A representation: its name, or an object with that name as the key of a null. -/
def luaType : Reader LuaType
  | [] => malformed .endInValue
  | .string name :: rest => do return (← namedLuaType name, ⟨rest, by simp⟩)
  | .openBrace :: .string name :: tokens => do
    let t ← namedLuaType name
    match h : emptyMember tokens with
    | .error fault => .error fault
    | .ok rest => .ok (t, ⟨rest, by
        have := length_emptyMember h
        simp only [List.length_cons]
        omega⟩)
  | .openBrace :: [] => malformed .endInObject
  | .openBrace :: .closeBrace :: _ => malformed .expectedValue
  | .openBrace :: .brokenString fault :: _ => malformed fault
  | .openBrace :: _ => malformed .expectedKey
  | .brokenString fault :: _ => malformed fault
  | _ => malformed .expectedValue

/-! ## Counts

A count is a number or a text.  Any other value is no count, but it has to be JSON first: a fault
inside it is found before its kind is.  A list or an object is checked with a stack of what is open,
so that the recursion is on the tokens. -/

inductive Open where
  | bracket
  | brace
  deriving DecidableEq, Repr

/-- What may come next inside a value: a first item or the end, an item, a first key or the end, a
key, a colon, or what follows an item. -/
inductive Next where
  | firstItem
  | item
  | firstKey
  | key
  | colon
  | separator
  deriving DecidableEq, Repr

def endFault : Next → Open → Json.Fault
  | .firstItem, _ => .endInList
  | .item, _ => .endInValue
  | .firstKey, _ => .endInObject
  | .key, _ => .endInValue
  | .colon, _ => .endInObject
  | .separator, .bracket => .endInList
  | .separator, .brace => .endInObject

/-- How many lists and objects may be open inside a count, which itself stands inside five. -/
def countDepth : Nat := 122

def canOpen (open_ : List Open) : Bool := open_.length < countDepth

/-- The fault of a count that begins with a list or an object.  `innermost :: outer` is what is
open, and `next` what may come. -/
def nestedFault (innermost : Open) (outer : List Open) (next : Next) : List Token → Fault
  | [] => .malformed (endFault next innermost)
  | token :: tokens =>
    let close : Fault := match outer with
      | [] => .noCount
      | o :: os => nestedFault o os .separator tokens
    let opened (o : Open) (n : Next) : Fault :=
      if canOpen (innermost :: outer) then nestedFault o (innermost :: outer) n tokens
      else .malformed .tooDeep
    match next, innermost, token with
    | .firstItem, _, .closeBracket => close
    | .item, .bracket, .closeBracket => .malformed .trailingComma
    | .firstItem, _, .openBracket | .item, _, .openBracket => opened .bracket .firstItem
    | .firstItem, _, .openBrace | .item, _, .openBrace => opened .brace .firstKey
    | .firstItem, _, .brokenString fault | .item, _, .brokenString fault => .malformed fault
    | .firstItem, _, .brokenLiteral fault | .item, _, .brokenLiteral fault => .malformed fault
    | .firstItem, _, .null | .item, _, .null => nestedFault innermost outer .separator tokens
    | .firstItem, _, .boolean _ | .item, _, .boolean _ =>
      nestedFault innermost outer .separator tokens
    | .firstItem, _, .number _ | .item, _, .number _ =>
      nestedFault innermost outer .separator tokens
    | .firstItem, _, .string _ | .item, _, .string _ =>
      nestedFault innermost outer .separator tokens
    | .firstItem, _, _ | .item, _, _ => .malformed .expectedValue
    | .firstKey, _, .closeBrace => close
    | .key, _, .closeBrace => .malformed .trailingComma
    | .firstKey, _, .string _ | .key, _, .string _ => nestedFault innermost outer .colon tokens
    | .firstKey, _, .brokenString fault | .key, _, .brokenString fault => .malformed fault
    | .firstKey, _, _ | .key, _, _ => .malformed .expectedKey
    | .colon, _, .colon => nestedFault innermost outer .item tokens
    | .colon, _, _ => .malformed .expectedColon
    | .separator, .bracket, .closeBracket => close
    | .separator, .bracket, .comma => nestedFault innermost outer .item tokens
    | .separator, .bracket, _ => .malformed .expectedCommaOrBracket
    | .separator, .brace, .closeBrace => close
    | .separator, .brace, .comma => nestedFault innermost outer .key tokens
    | .separator, .brace, _ => .malformed .expectedCommaOrBrace

/-- A count: a natural number of 32 bits or a text. -/
def count : Reader CountDecl
  | [] => malformed .endInValue
  | .number (.natural n) :: rest =>
    if n < 0x100000000 then .ok (.fixed n, ⟨rest, by simp⟩) else .error .noCount
  | .string s :: rest => .ok (.named s, ⟨rest, by simp⟩)
  | .number _ :: _ | .boolean _ :: _ | .null :: _ => .error .noCount
  | .openBracket :: tokens => .error (nestedFault .bracket [] .firstItem tokens)
  | .openBrace :: tokens => .error (nestedFault .brace [] .firstKey tokens)
  | .brokenString fault :: _ => malformed fault
  | .brokenLiteral fault :: _ => malformed fault
  | _ => malformed .expectedValue

/-! ## Lists -/

/-- The items of a list and its closing bracket; an item comes first. -/
def items {α : Type} (read : Reader α) (tokens : List Token) : Reading (List α) tokens :=
  match read tokens with
  | .error fault => .error fault
  | .ok (a, ⟨rest, h⟩) =>
    match rest with
    | [] => malformed .endInList
    | .closeBracket :: rest => .ok ([a], ⟨rest, by simp only [List.length_cons] at h; omega⟩)
    | .comma :: [] => malformed .endInValue
    | .comma :: .closeBracket :: _ => malformed .trailingComma
    | .comma :: more =>
      have hlt : more.length < tokens.length := by simp only [List.length_cons] at h; omega
      match items read more with
      | .error fault => .error fault
      | .ok (as, ⟨rest, h'⟩) => .ok (a :: as, ⟨rest, Nat.lt_trans h' hlt⟩)
    | _ => malformed .expectedCommaOrBracket
termination_by tokens.length
decreasing_by exact hlt

def list {α : Type} (read : Reader α) : Reader (List α)
  | .openBracket :: [] => malformed .endInList
  | .openBracket :: .closeBracket :: rest =>
    .ok ([], ⟨rest, by simp only [List.length_cons]; omega⟩)
  | .openBracket :: tokens => do
    let (as, ⟨rest, h⟩) ← items read tokens
    return (as, ⟨rest, Nat.lt_succ_of_lt h⟩)
  | tokens => .error (mismatch "a sequence" tokens)

/-! ## Structures -/

/-- The members of a structure.  `μ` holds what has been read so far: `has` tells whether a member
is among it, `read` adds one, and `finish` makes the structure or names the first member that it
lacks. -/
structure Shape (μ : Type) (α : Type) where
  name : String
  members : List String
  none : μ
  has : String → μ → Bool
  read : String → μ → Reader μ
  finish : μ → Except String α

namespace Shape

variable {μ α : Type}

/-- The members of an object and its closing brace; a key comes first. -/
def object (shape : Shape μ α) (m : μ) (tokens : List Token) : Reading μ tokens :=
  match tokens with
  | .string key :: more =>
    if key ∉ shape.members then .error (.unknownField key shape.members)
    else if shape.has key m then .error (.duplicateField key)
    else match more with
      | [] => malformed .endInObject
      | .colon :: more =>
        match shape.read key m more with
        | .error fault => .error fault
        | .ok (m, ⟨rest, h⟩) =>
          match rest with
          | [] => malformed .endInObject
          | .closeBrace :: rest =>
            .ok (m, ⟨rest, by simp only [List.length_cons] at h ⊢; omega⟩)
          | .comma :: [] => malformed .endInValue
          | .comma :: .closeBrace :: _ => malformed .trailingComma
          | .comma :: more' =>
            have hlt : more'.length < (Token.string key :: .colon :: more).length := by
              simp only [List.length_cons] at h ⊢; omega
            match object shape m more' with
            | .error fault => .error fault
            | .ok (m, ⟨rest, h'⟩) => .ok (m, ⟨rest, Nat.lt_trans h' hlt⟩)
          | _ => malformed .expectedCommaOrBrace
      | _ => malformed .expectedColon
  | .brokenString fault :: _ => malformed fault
  | _ => malformed .expectedKey
termination_by tokens.length
decreasing_by exact hlt

def closing : List Token → Except Fault (List Token)
  | [] => malformed .endInList
  | .closeBracket :: rest => .ok rest
  | .comma :: .closeBracket :: _ => malformed .trailingComma
  | _ => malformed .trailingCharacters

theorem length_closing {tokens rest : List Token} (h : closing tokens = .ok rest) :
    rest.length < tokens.length := by
  unfold closing at h
  split at h <;> cases h
  simp

/-- The members of a list, for the names that are left, and its closing bracket.  A comma comes
first unless the list has just begun. -/
def row (shape : Shape μ α) (m : μ) :
    (begun : Bool) → (names : List String) → (tokens : List Token) → Reading μ tokens
  | _, [], tokens =>
    match h : closing tokens with
    | .error fault => .error fault
    | .ok rest => .ok (m, ⟨rest, length_closing h⟩)
  | _, _ :: _, [] => malformed .endInList
  | _, _ :: _, .closeBracket :: rest => .ok (m, ⟨rest, by simp⟩)
  | false, name :: names, tokens => do
    let (m, ⟨rest, h⟩) ← shape.read name m tokens
    let (m, ⟨rest, h'⟩) ← row shape m true names rest
    return (m, ⟨rest, Nat.lt_trans h' h⟩)
  | true, _ :: _, .comma :: [] => malformed .endInValue
  | true, _ :: _, .comma :: .closeBracket :: _ => malformed .trailingComma
  | true, name :: names, .comma :: tokens => do
    let (m, ⟨rest, h⟩) ← shape.read name m tokens
    let (m, ⟨rest, h'⟩) ← row shape m true names rest
    return (m, ⟨rest, Nat.lt_succ_of_lt (Nat.lt_trans h' h)⟩)
  | true, _ :: _, _ => malformed .expectedCommaOrBracket

def ofObject (shape : Shape μ α) (m : μ) : Except Fault α :=
  match shape.finish m with
  | .ok a => .ok a
  | .error name => .error (.missingField name)

def ofRow (shape : Shape μ α) (m : μ) : Except Fault α :=
  match shape.finish m with
  | .ok a => .ok a
  | .error name =>
    .error (.wrongLength (shape.members.idxOf name) shape.name shape.members.length)

/-- A structure, as an object or as a list. -/
def reader (shape : Shape μ α) : Reader α
  | .openBrace :: [] => malformed .endInObject
  | .openBrace :: .closeBrace :: rest => do
    return (← shape.ofObject shape.none, ⟨rest, by simp only [List.length_cons]; omega⟩)
  | .openBrace :: tokens => do
    let (m, ⟨rest, h⟩) ← shape.object shape.none tokens
    return (← shape.ofObject m, ⟨rest, Nat.lt_succ_of_lt h⟩)
  | .openBracket :: tokens => do
    let (m, ⟨rest, h⟩) ← shape.row shape.none false shape.members tokens
    return (← shape.ofRow m, ⟨rest, Nat.lt_succ_of_lt h⟩)
  | tokens => .error (mismatch shape.name tokens)

end Shape

def need {α : Type} (name : String) : Option α → Except String α
  | some a => .ok a
  | none => .error name

/-! ## Cases, fields, tables, sets -/

structure CaseMembers where
  selector : Option Int
  type : Option String
  luaType : Option LuaType

def caseShape : Shape CaseMembers CaseDecl where
  name := "struct RawCase"
  members := ["when", "type", "luatype"]
  none := ⟨none, none, none⟩
  has
    | "when", m => m.selector.isSome
    | "type", m => m.type.isSome
    | _, m => m.luaType.isSome
  read
    | "when", m => integer.map fun n => { m with selector := some n }
    | "type", m => text.map fun s => { m with type := some s }
    | _, m => luaType.map fun t => { m with luaType := some t }
  finish m := do
    return {
      selector := ← need "when" m.selector
      type := ← need "type" m.type
      luaType := ← need "luatype" m.luaType }

structure FieldMembers where
  name : Option String
  tag : Option (Option String)
  type : Option (Option String)
  luaType : Option LuaType
  count : Option (Option CountDecl)
  condition : Option (Option String)
  cases : Option (List CaseDecl)

def fieldShape : Shape FieldMembers FieldDecl where
  name := "struct RawField"
  members := ["name", "tag", "type", "luatype", "count", "condition", "cases"]
  none := ⟨none, none, none, none, none, none, none⟩
  has
    | "name", m => m.name.isSome
    | "tag", m => m.tag.isSome
    | "type", m => m.type.isSome
    | "luatype", m => m.luaType.isSome
    | "count", m => m.count.isSome
    | "condition", m => m.condition.isSome
    | _, m => m.cases.isSome
  read
    | "name", m => text.map fun s => { m with name := some s }
    | "tag", m => (optional text).map fun s => { m with tag := some s }
    | "type", m => (optional text).map fun s => { m with type := some s }
    | "luatype", m => luaType.map fun t => { m with luaType := some t }
    | "count", m => (optional count).map fun c => { m with count := some c }
    | "condition", m => (optional text).map fun s => { m with condition := some s }
    | _, m => (list caseShape.reader).map fun cs => { m with cases := some cs }
  finish m := do
    return {
      name := ← need "name" m.name
      tag := m.tag.join
      type := m.type.join
      luaType := ← need "luatype" m.luaType
      count := m.count.join
      condition := m.condition.join
      cases := m.cases.getD [] }

structure TableMembers where
  tag : Option String
  name : Option String
  fields : Option (List FieldDecl)

def tableShape : Shape TableMembers TableDecl where
  name := "struct RawTable"
  members := ["tag", "name", "fields"]
  none := ⟨none, none, none⟩
  has
    | "tag", m => m.tag.isSome
    | "name", m => m.name.isSome
    | _, m => m.fields.isSome
  read
    | "tag", m => text.map fun s => { m with tag := some s }
    | "name", m => text.map fun s => { m with name := some s }
    | _, m => (list fieldShape.reader).map fun fs => { m with fields := some fs }
  finish m := do
    return {
      tag := ← need "tag" m.tag
      name := ← need "name" m.name
      fields := m.fields.getD [] }

structure SetMembers where
  read : Option (List TableDecl)
  definition : Option (List TableDecl)

def setShape : Shape SetMembers Declarations where
  name := "struct RawTableSet"
  members := ["read", "definition"]
  none := ⟨none, none⟩
  has
    | "read", m => m.read.isSome
    | _, m => m.definition.isSome
  read
    | "read", m => (list tableShape.reader).map fun ts => { m with read := some ts }
    | _, m => (list tableShape.reader).map fun ts => { m with definition := some ts }
  finish m := .ok { read := m.read.getD [], definition := m.definition.getD [] }

/-- The declarations that tokens write.  Nothing may follow them. -/
def ofTokens (tokens : List Token) : Except Fault Declarations := do
  let (d, ⟨rest, _⟩) ← setShape.reader tokens
  if rest.isEmpty then return d else malformed .trailingCharacters

def declarations (document : String) : Except Fault Declarations :=
  ofTokens (Token.scan document.toList)

end Document
end RecordTables
