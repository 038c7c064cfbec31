import Mathlib.Data.List.TakeWhile
import RecordTables.Proofs.Schema.Naming
import RecordTables.Proofs.Instance.Classes

/-!
Chunks of Lua that fill tables.

A chunk makes local tables, assigns what a name stands for to a field, and returns what a name stands
for.  This is a small part of Lua: comments go to the end of a line, and a text with anything else in
it is not read.  A name stands for the local of that name; one that has no local is a field of `_ENV`,
which is the table of the globals unless there is a local of that name as well.
-/

namespace RecordTables

/-! ## Reading -/

/-- The parts of a text: the words `local` and `return`, names and symbols. -/
inductive Lexeme where
  | opens
  | returns
  | name (text : String)
  | symbol (c : Char)
  deriving DecidableEq, Repr

namespace Lexeme

/-- The lexeme of a word.  The other words that Lua keeps for itself are in no chunk. -/
def ofWord? (word : String) : Option Lexeme :=
  if word = "local" then some .opens
  else if word = "return" then some .returns
  else if isName word then some (.name word)
  else none

/-- Whether a character is a symbol in front of a text.  Some symbols are read together with what
follows, a number or the same symbol; no chunk has these. -/
def isSymbol (c : Char) (text : List Char) : Bool :=
  c ∈ ['=', '.', '{', '}'] && !text.head?.any fun d => d = c || d.isDigit

/-- The lexemes of a text. -/
def scan : List Char → Option (List Lexeme)
  | [] => some []
  | '-' :: '-' :: text =>
    if text.head? = some '[' then none else scan (text.dropWhile (· ≠ '\n'))
  | c :: text =>
    if c.isWhitespace then scan text
    else if isNameStart c then do
      let lexeme ← ofWord? (String.ofList (c :: text.takeWhile isNameRest))
      let lexemes ← scan (text.dropWhile isNameRest)
      return lexeme :: lexemes
    else if isSymbol c text then do
      let lexemes ← scan text
      return .symbol c :: lexemes
    else none
termination_by text => text.length
decreasing_by
  all_goals simp only [List.length_cons]
  · have := (List.dropWhile_sublist (l := text) fun c => decide (c ≠ '\n')).length_le
    omega
  · omega
  · have := (List.dropWhile_sublist (l := text) isNameRest).length_le
    omega
  · omega

end Lexeme

/-- What a chunk may do. -/
inductive Statement where
  | newTable (name : String)
  | setField (table field value : String)
  deriving DecidableEq, Repr

/-- What a chunk does, and the name that it returns. -/
structure Chunk where
  body : List Statement
  result : String
  deriving DecidableEq, Repr

namespace Chunk

/-- The chunk with one statement more in front. -/
def cons (s : Statement) (c : Chunk) : Chunk := { c with body := s :: c.body }

/-- The chunk of lexemes. -/
def ofLexemes : List Lexeme → Option Chunk
  | [.returns, .name x] => some ⟨[], x⟩
  | .opens :: .name x :: .symbol '=' :: .symbol '{' :: .symbol '}' :: rest =>
    (ofLexemes rest).map (cons (.newTable x))
  | .name x :: .symbol '.' :: .name field :: .symbol '=' :: .name y :: rest =>
    (ofLexemes rest).map (cons (.setField x field y))
  | _ => none

/-- The chunk that a text is. -/
def read (text : String) : Option Chunk := (Lexeme.scan text.toList).bind ofLexemes

/-! ## Running -/

open Instance (environmentName index assign named)

/-- What a name stands for beside locals, of which the last comes first. -/
def valueOf (locals : List (String × Value)) (name : String) : Action Value :=
  match locals.lookup name with
  | some v => pure v
  | none =>
    match locals.lookup environmentName with
    | some environment => index environment (.ofText name)
    | none => named name

/-- Does a statement, and gives the locals after it. -/
def execute (locals : List (String × Value)) : Statement → Action (List (String × Value))
  | .newTable name => do
    let r ← Action.newTable .empty
    return (name, .table r) :: locals
  | .setField table field value => do
    let v ← valueOf locals value
    let t ← valueOf locals table
    assign t (.ofText field) v
    return locals

/-- Does statements in order. -/
def executeAll (locals : List (String × Value)) :
    List Statement → Action (List (String × Value))
  | [] => return locals
  | s :: rest => do
    let locals ← execute locals s
    executeAll locals rest

/-- Does what the chunk does, and gives what it returns. -/
def run (c : Chunk) : Action Value := do
  let locals ← executeAll [] c.body
  valueOf locals c.result

end Chunk

namespace Lexeme

/-! ## The lexemes of a line -/

/-- The text is the lexemes, whatever follows it. -/
def Spells (text : List Char) (lexemes : List Lexeme) : Prop :=
  ∀ rest, scan (text ++ rest) = (scan rest).map (lexemes ++ ·)

variable {text more : List Char} {lexemes others : List Lexeme} {c d : Char}

theorem scan_nil : scan [] = some [] := by
  rw [scan]

theorem spells_nil : Spells [] [] := by
  intro rest
  show scan rest = (scan rest).map ([] ++ ·)
  cases scan rest <;> rfl

theorem Spells.append (h : Spells text lexemes) (h' : Spells more others) :
    Spells (text ++ more) (lexemes ++ others) := by
  intro rest
  rw [List.append_assoc, h, h']
  cases scan rest <;> simp

theorem scan_of_ne (hc : c ≠ '-') :
    scan (c :: text) =
      if c.isWhitespace then scan text
      else if isNameStart c then
        (ofWord? (String.ofList (c :: text.takeWhile isNameRest))).bind fun lexeme =>
          (scan (text.dropWhile isNameRest)).map (lexeme :: ·)
      else if isSymbol c text then (scan text).map (.symbol c :: ·)
      else none := by
  rw [scan]
  · simp only [Option.map_eq_bind, Option.bind_eq_bind, Option.pure_def]
    rfl
  · intro _ h
    exact absurd h hc

theorem not_isNameStart_of_isWhitespace (hc : c.isWhitespace) : isNameStart c = false := by
  simp only [Char.isWhitespace, Bool.or_eq_true, decide_eq_true_eq] at hc
  rcases hc with ((rfl | rfl) | rfl) | rfl <;> rfl

theorem spells_blank (hc : c.isWhitespace) : Spells [c] [] := by
  intro rest
  have hne : c ≠ '-' := by
    rintro rfl
    exact absurd hc (by decide)
  rw [List.singleton_append, scan_of_ne hne, if_pos hc]
  exact spells_nil rest

theorem not_isDigit_of_isNameStart (hc : isNameStart c) : c.isDigit = false := by
  rw [isNameStart_iff] at hc
  rw [← Bool.not_eq_true, isDigit_iff]
  intro hdigit
  have hbounds : 48 ≤ c.toNat ∧ c.toNat ≤ 57 := hdigit
  rcases hc with (hlower | hupper) | rfl
  · have hlow : 97 ≤ c.toNat := hlower.1
    omega
  · have hlow : 65 ≤ c.toNat := hupper.1
    omega
  · exact absurd hbounds.2 (by decide)

theorem Spells.space (h : Spells text lexemes) : Spells (' ' :: text) lexemes :=
  Spells.append (spells_blank rfl) h

/-- A comment goes on to the end of its line. -/
theorem spells_comment (hstart : text.head? ≠ some '[') (hend : '\n' ∉ text) :
    Spells ('-' :: '-' :: (text ++ ['\n'])) [] := by
  intro rest
  have hdrop : (text ++ '\n' :: rest).dropWhile (· ≠ '\n') = '\n' :: rest := by
    rw [List.dropWhile_append_of_pos]
    · rfl
    · intro c hc
      rw [decide_eq_true_iff]
      rintro rfl
      exact hend hc
  have hhead : (text ++ '\n' :: rest).head? ≠ some '[' := by
    cases text with
    | nil => nofun
    | cons c text => exact hstart
  show scan ('-' :: '-' :: ((text ++ ['\n']) ++ rest)) = _
  rw [List.append_assoc, List.singleton_append, scan, if_neg hhead, hdrop]
  exact spells_blank (by decide) rest

/-- A name, or one of the two words, goes on to the first character that is in no name. -/
theorem Spells.word {word : String} {lexeme : Lexeme} (hword : ∃ c cs, word.toList = c :: cs ∧
      isNameStart c ∧ ∀ d ∈ cs, isNameRest d) (hlexeme : ofWord? word = some lexeme)
    (hc : isNameRest c = false) (h : Spells (c :: text) lexemes) :
    Spells (word.toList ++ c :: text) (lexeme :: lexemes) := by
  obtain ⟨first, others, hlist, hfirst, hothers⟩ := hword
  have hne : first ≠ '-' := by
    rintro rfl
    exact absurd hfirst (by decide)
  have hblank : ¬first.isWhitespace := by
    intro hblank
    rw [not_isNameStart_of_isWhitespace hblank] at hfirst
    exact absurd hfirst (by decide)
  intro rest
  have htake : (others ++ c :: (text ++ rest)).takeWhile isNameRest = others := by
    rw [List.takeWhile_append_of_pos hothers, List.takeWhile_cons_of_neg (by simp [hc]),
      List.append_nil]
  have hdrop : (others ++ c :: (text ++ rest)).dropWhile isNameRest = c :: (text ++ rest) := by
    rw [List.dropWhile_append_of_pos hothers, List.dropWhile_cons_of_neg (by simp [hc])]
  rw [List.append_assoc, hlist, List.cons_append, List.cons_append, scan_of_ne hne, if_neg hblank,
    if_pos hfirst, htake, hdrop, ← hlist, String.ofList_toList, hlexeme]
  show (scan ((c :: text) ++ rest)).map _ = _
  rw [h]
  cases scan rest <;> rfl

theorem Spells.name {name : String} (hname : IsIdentifier name) (hc : isNameRest c = false)
    (h : Spells (c :: text) lexemes) : Spells (name.toList ++ c :: text) (.name name :: lexemes) := by
  have hword : name ∉ ["local", "return"] := by
    intro hmem
    have hkeywords : ∀ word ∈ ["local", "return"], word ∈ keywords := by decide
    exact hname.noKeyword (hkeywords name hmem)
  rw [List.mem_cons, List.mem_singleton, not_or] at hword
  obtain ⟨first, others, hlist, hfirst, hothers⟩ := hname.chars
  refine Spells.word ⟨first, others, hlist, ?_, fun d hd => ?_⟩ ?_ hc h
  · exact (isNameStart_iff first).2 hfirst
  · exact (isNameRest_iff d).2 (hothers d hd)
  · rw [ofWord?, if_neg hword.1, if_neg hword.2, if_pos ((isName_iff name).2 hname)]

theorem Spells.symbol (hc : c ∈ ['=', '.', '{', '}']) (hd : d ≠ c) (hdigit : d.isDigit = false)
    (h : Spells (d :: text) lexemes) : Spells (c :: d :: text) (.symbol c :: lexemes) := by
  have hsymbols : ∀ c ∈ ['=', '.', '{', '}'],
      c ≠ '-' ∧ c.isWhitespace = false ∧ isNameStart c = false := by simp [isNameStart]
  obtain ⟨hne, hblank, hname⟩ := hsymbols c hc
  intro rest
  have hsymbol : isSymbol c (d :: text ++ rest) := by
    simp [isSymbol, hc, hd, hdigit]
  rw [List.cons_append, scan_of_ne hne, hblank, hname,
    if_neg Bool.false_ne_true, if_neg Bool.false_ne_true, if_pos hsymbol, h]
  cases scan rest <;> rfl

end Lexeme
end RecordTables
