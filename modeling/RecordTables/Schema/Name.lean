/-!
Names and references.

A name is an ASCII identifier of Lua that is none of its keywords.  A reference is a text of the
form `self::tag`; `referent?` takes the tag out of it.
-/

namespace RecordTables

def keywords : List String :=
  ["and", "break", "do", "else", "elseif", "end", "false", "for", "function", "goto", "if", "in",
    "local", "nil", "not", "or", "repeat", "return", "then", "true", "until", "while"]

def isNameStart (c : Char) : Bool := c.isAlpha || c = '_'

def isNameRest (c : Char) : Bool := c.isAlphanum || c = '_'

def isName (text : String) : Bool :=
  match text.toList with
  | [] => false
  | c :: cs => isNameStart c && cs.all isNameRest && text ∉ keywords

def referenceMark : String := "self::"

/-- The tag that a reference refers to. -/
def referent? (text : String) : Option String :=
  if referenceMark.toList.isPrefixOf text.toList then
    some (String.ofList (text.toList.drop referenceMark.toList.length))
  else none

theorem referent?_eq_some_iff {text tag : String} :
    referent? text = some tag ↔ text = referenceMark ++ tag := by
  unfold referent?
  split
  · next h =>
    obtain ⟨rest, hrest⟩ := List.isPrefixOf_iff_prefix.1 h
    constructor
    · intro h
      have htag := Option.some.inj h
      rw [← hrest, List.drop_left] at htag
      apply String.toList_inj.1
      rw [String.toList_append, ← htag, String.toList_ofList, hrest]
    · intro h
      subst h
      rw [String.toList_append, List.drop_left, String.ofList_toList]
  · next h =>
    simp only [reduceCtorEq, false_iff]
    intro heq
    subst heq
    exact h (List.isPrefixOf_iff_prefix.2 ⟨tag.toList, by rw [String.toList_append]⟩)

end RecordTables
