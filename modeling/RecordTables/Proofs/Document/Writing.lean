import Mathlib.Data.List.Forall2
import RecordTables.Proofs.Json.Grammar
import RecordTables.Schema.Declaration

/-!
What writes declarations.

A structure is written as an object of its members, in any order, or as the list of its members in
their order, which may stop early.  `Members` reduces both to one list of named values, and what a
structure needs, and what it may lack, is said of that list.

Nothing here is computed.  A relation `writes t a` says that the value `t` is one of the ways to write
`a`, and `Writes` says it of a whole document.
-/

namespace RecordTables

open Json (Tree)

/-! ## Numbers -/

/-- The literal is an integer: it has neither fraction nor exponent and is not minus zero. -/
structure Json.Literal.IsInteger (l : Json.Literal) (n : Int) : Prop where
  fraction : l.fraction = none
  exponent : l.exponent = none
  value : n = if l.negative then -(natural l.whole : Int) else natural l.whole
  notMinusZero : l.negative → n ≠ 0

namespace Document

/-- Integers of 64 bits. -/
inductive IsInteger : Tree → Int → Prop
  | mk {l : Json.Literal} {n : Int} (h : l.IsInteger n) (low : -0x8000000000000000 ≤ n)
      (high : n < 0x8000000000000000) : IsInteger (.number l) n

inductive IsText : Tree → String → Prop
  | mk {s : String} : IsText (.string s) s

inductive IsCount : Tree → CountDecl → Prop
  | fixed {l : Json.Literal} {n : Nat} (h : l.IsInteger n) (hn : n < 0x100000000) :
      IsCount (.number l) (.fixed n)
  | named {s : String} : IsCount (.string s) (.named s)

/-- A representation is its name, or an object of one null by that name. -/
inductive IsLuaType : Tree → LuaType → Prop
  | name {t : LuaType} : IsLuaType (.string t.name) t
  | member {t : LuaType} : IsLuaType (.object [(t.name, .null)]) t

/-! ## Lists and members -/

section

variable {α : Type} (writes : Tree → α → Prop)

inductive IsOptional : Tree → Option α → Prop
  | null : IsOptional .null none
  | value {t : Tree} {a : α} (h : writes t a) : IsOptional t (some a)

inductive IsList : Tree → List α → Prop
  | mk {ts : List Tree} {as : List α} (h : List.Forall₂ writes ts as) : IsList (.list ts) as

/-- The value has these members, and no others than the names say: none twice and in any order as an
object, and in the order of the names as a list. -/
inductive Members (names : List String) : Tree → List (String × Tree) → Prop
  | object {ms : List (String × Tree)} (known : ∀ m ∈ ms, m.1 ∈ names)
      (distinct : (ms.map Prod.fst).Nodup) : Members names (.object ms) ms
  | list {ts : List Tree} (known : ts.length ≤ names.length) :
      Members names (.list ts) (names.zip ts)

/-- What the members say under a name, if they have it. -/
inductive Member (ms : List (String × Tree)) (name : String) : Option α → Prop
  | present {t : Tree} {a : α} (h : (name, t) ∈ ms) (ha : writes t a) : Member ms name (some a)
  | absent (h : ∀ t, (name, t) ∉ ms) : Member ms name none

end

/-! ## Declarations -/

inductive IsCase : Tree → CaseDecl → Prop
  | mk {t : Tree} {ms : List (String × Tree)} {selector : Int} {type : String} {luaType : LuaType}
      (h : Members ["when", "type", "luatype"] t ms)
      (hs : Member IsInteger ms "when" (some selector))
      (ht : Member IsText ms "type" (some type))
      (hl : Member IsLuaType ms "luatype" (some luaType)) :
      IsCase t ⟨selector, type, luaType⟩

inductive IsField : Tree → FieldDecl → Prop
  | mk {t : Tree} {ms : List (String × Tree)} {name : String} {tag type : Option (Option String)}
      {luaType : LuaType} {count : Option (Option CountDecl)} {condition : Option (Option String)}
      {cases : Option (List CaseDecl)}
      (h : Members ["name", "tag", "type", "luatype", "count", "condition", "cases"] t ms)
      (hn : Member IsText ms "name" (some name))
      (htag : Member (IsOptional IsText) ms "tag" tag)
      (htype : Member (IsOptional IsText) ms "type" type)
      (hl : Member IsLuaType ms "luatype" (some luaType))
      (hcount : Member (IsOptional IsCount) ms "count" count)
      (hcondition : Member (IsOptional IsText) ms "condition" condition)
      (hcases : Member (IsList IsCase) ms "cases" cases) :
      IsField t ⟨name, tag.join, type.join, luaType, count.join, condition.join, cases.getD []⟩

inductive IsTable : Tree → TableDecl → Prop
  | mk {t : Tree} {ms : List (String × Tree)} {tag name : String} {fields : Option (List FieldDecl)}
      (h : Members ["tag", "name", "fields"] t ms)
      (ht : Member IsText ms "tag" (some tag))
      (hn : Member IsText ms "name" (some name))
      (hf : Member (IsList IsField) ms "fields" fields) :
      IsTable t ⟨tag, name, fields.getD []⟩

inductive IsSet : Tree → Declarations → Prop
  | mk {t : Tree} {ms : List (String × Tree)} {read definition : Option (List TableDecl)}
      (h : Members ["read", "definition"] t ms)
      (hr : Member (IsList IsTable) ms "read" read)
      (hd : Member (IsList IsTable) ms "definition" definition) :
      IsSet t ⟨read.getD [], definition.getD []⟩

/-- The document is one value that writes the declarations, and nothing else. -/
inductive Writes (document : String) (d : Declarations) : Prop
  | mk {t : Tree} {post : List Char} (h : t.Spelled document.toList post)
      (nothing : Json.Blanks post []) (hd : IsSet t d) : Writes document d

end Document
end RecordTables
