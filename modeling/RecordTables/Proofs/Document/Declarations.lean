import RecordTables.Document.Tables
import RecordTables.Proofs.Document.Members
import RecordTables.Proofs.Schema.Faults

/-!
A document is read exactly if it writes declarations.

Cases, fields, tables and sets are structures of a few members each; the slots of their members are
listed here, from the inside out, since a field is read by way of its cases and so on.
-/

namespace RecordTables
namespace Document

open Json (Token Tree Blanks)
open Json.Token (scan)

variable {α : Type}

theorem Reads.congr {r : Reader α} {writes writes' : Tree → α → Prop} (hr : Reads r writes)
    (h : ∀ t a, writes t a ↔ writes' t a) : Reads r writes' where
  sound hr' := by
    obtain ⟨t, post, ht, ha, rfl⟩ := hr.sound hr'
    exact ⟨t, post, ht, (h t _).1 ha, rfl⟩
  complete ha ht hp := hr.complete ((h _ _).2 ha) ht hp
  leavesClosing := hr.leavesClosing

theorem need_eq_ok_iff {name : String} {o : Option α} {a : α} :
    need name o = .ok a ↔ o = some a := by
  cases o <;> simp [need]

theorem reads_optional_text : Reads (optional text) (IsOptional IsText) :=
  reads_optional reads_text fun h => by
    rw [text_takes_iff] at h
    cases h

theorem reads_optional_count : Reads (optional count) (IsOptional IsCount) :=
  reads_optional reads_count fun h => by
    rw [count_takes_iff] at h
    rcases h with ⟨k, h, -⟩ | ⟨s, h, -⟩ <;> cases h

/-! ## Cases -/

def caseSlots : List (Slot CaseMembers) :=
  [{ name := "when", writes := IsInteger, reader := integer, get := CaseMembers.selector
     set := fun n m => { m with selector := some n } },
   { name := "type", writes := IsText, reader := text, get := CaseMembers.type
     set := fun s m => { m with type := some s } },
   { name := "luatype", writes := IsLuaType, reader := luaType, get := CaseMembers.luaType
     set := fun t m => { m with luaType := some t } }]

theorem caseShape_hasSlots : caseShape.HasSlots caseSlots where
  members := rfl
  nonempty := by simp [caseShape]
  distinct := by decide
  reads := by
    simp only [caseSlots, List.forall_mem_cons]
    exact ⟨reads_integer, reads_text, reads_luaType, by simp⟩
  has_eq := by
    simp only [caseSlots, List.forall_mem_cons]
    exact ⟨fun _ => rfl, fun _ => rfl, fun _ => rfl, by simp⟩
  read_eq := by
    simp only [caseSlots, List.forall_mem_cons]
    exact ⟨fun _ => rfl, fun _ => rfl, fun _ => rfl, by simp⟩
  get_none := by simp [caseSlots, caseShape]
  get_set := by simp [caseSlots]
  get_set_ne := by simp [caseSlots]
  ext := by
    rintro ⟨⟩ ⟨⟩
    simp [caseSlots]

theorem reads_case : Reads caseShape.reader IsCase := by
  refine caseShape_hasSlots.reads_reader.congr fun t c => ?_
  constructor
  · rintro ⟨ms, m, hms, hm, hfinish⟩
    simp only [Holds, caseSlots, List.forall_mem_cons] at hm
    obtain ⟨hs, ht, hl, -⟩ := hm
    simp only [caseShape, bind_eq_ok_iff, need_eq_ok_iff] at hfinish
    obtain ⟨selector, es, type, et, luaType, el, hc⟩ := hfinish
    cases hc
    rw [es] at hs
    rw [et] at ht
    rw [el] at hl
    exact .mk hms hs ht hl
  · rintro ⟨hms, hs, ht, hl⟩
    refine ⟨_, ⟨some _, some _, some _⟩, hms, ?_, rfl⟩
    simp only [Holds, caseSlots, List.forall_mem_cons]
    exact ⟨hs, ht, hl, by simp⟩

/-! ## Fields -/

def fieldSlots : List (Slot FieldMembers) :=
  [{ name := "name", writes := IsText, reader := text, get := FieldMembers.name
     set := fun s m => { m with name := some s } },
   { name := "tag", writes := IsOptional IsText, reader := optional text, get := FieldMembers.tag
     set := fun s m => { m with tag := some s } },
   { name := "type", writes := IsOptional IsText, reader := optional text
     get := FieldMembers.type, set := fun s m => { m with type := some s } },
   { name := "luatype", writes := IsLuaType, reader := luaType, get := FieldMembers.luaType
     set := fun t m => { m with luaType := some t } },
   { name := "count", writes := IsOptional IsCount, reader := optional count
     get := FieldMembers.count, set := fun c m => { m with count := some c } },
   { name := "condition", writes := IsOptional IsText, reader := optional text
     get := FieldMembers.condition, set := fun s m => { m with condition := some s } },
   { name := "cases", writes := IsList IsCase, reader := list caseShape.reader
     get := FieldMembers.cases, set := fun cs m => { m with cases := some cs } }]

theorem fieldShape_hasSlots : fieldShape.HasSlots fieldSlots where
  members := rfl
  nonempty := by simp [fieldShape]
  distinct := by decide
  reads := by
    simp only [fieldSlots, List.forall_mem_cons]
    exact ⟨reads_text, reads_optional_text, reads_optional_text, reads_luaType,
      reads_optional_count, reads_optional_text, reads_list reads_case, by simp⟩
  has_eq := by
    simp only [fieldSlots, List.forall_mem_cons]
    exact ⟨fun _ => rfl, fun _ => rfl, fun _ => rfl, fun _ => rfl, fun _ => rfl, fun _ => rfl,
      fun _ => rfl, by simp⟩
  read_eq := by
    simp only [fieldSlots, List.forall_mem_cons]
    exact ⟨fun _ => rfl, fun _ => rfl, fun _ => rfl, fun _ => rfl, fun _ => rfl, fun _ => rfl,
      fun _ => rfl, by simp⟩
  get_none := by simp [fieldSlots, fieldShape]
  get_set := by simp [fieldSlots]
  get_set_ne := by simp [fieldSlots]
  ext := by
    rintro ⟨⟩ ⟨⟩
    simp only [fieldSlots, List.forall_mem_cons, FieldMembers.mk.injEq]
    rintro ⟨hn, htag, htype, hl, hcount, hcondition, hcases, -⟩
    exact ⟨hn, htag, htype, hl, hcount, hcondition, hcases⟩

theorem reads_field : Reads fieldShape.reader IsField := by
  refine fieldShape_hasSlots.reads_reader.congr fun t f => ?_
  constructor
  · rintro ⟨ms, m, hms, hm, hfinish⟩
    simp only [Holds, fieldSlots, List.forall_mem_cons] at hm
    obtain ⟨hn, htag, htype, hl, hcount, hcondition, hcases, -⟩ := hm
    simp only [fieldShape, bind_eq_ok_iff, need_eq_ok_iff] at hfinish
    obtain ⟨name, en, luaType, el, hf⟩ := hfinish
    cases hf
    rw [en] at hn
    rw [el] at hl
    exact .mk hms hn htag htype hl hcount hcondition hcases
  · rintro ⟨hms, hn, htag, htype, hl, hcount, hcondition, hcases⟩
    refine ⟨_, ⟨some _, _, _, some _, _, _, _⟩, hms, ?_, rfl⟩
    simp only [Holds, fieldSlots, List.forall_mem_cons]
    exact ⟨hn, htag, htype, hl, hcount, hcondition, hcases, by simp⟩

/-! ## Tables -/

def tableSlots : List (Slot TableMembers) :=
  [{ name := "tag", writes := IsText, reader := text, get := TableMembers.tag
     set := fun s m => { m with tag := some s } },
   { name := "name", writes := IsText, reader := text, get := TableMembers.name
     set := fun s m => { m with name := some s } },
   { name := "fields", writes := IsList IsField, reader := list fieldShape.reader
     get := TableMembers.fields, set := fun fs m => { m with fields := some fs } }]

theorem tableShape_hasSlots : tableShape.HasSlots tableSlots where
  members := rfl
  nonempty := by simp [tableShape]
  distinct := by decide
  reads := by
    simp only [tableSlots, List.forall_mem_cons]
    exact ⟨reads_text, reads_text, reads_list reads_field, by simp⟩
  has_eq := by
    simp only [tableSlots, List.forall_mem_cons]
    exact ⟨fun _ => rfl, fun _ => rfl, fun _ => rfl, by simp⟩
  read_eq := by
    simp only [tableSlots, List.forall_mem_cons]
    exact ⟨fun _ => rfl, fun _ => rfl, fun _ => rfl, by simp⟩
  get_none := by simp [tableSlots, tableShape]
  get_set := by simp [tableSlots]
  get_set_ne := by simp [tableSlots]
  ext := by
    rintro ⟨⟩ ⟨⟩
    simp [tableSlots]

theorem reads_table : Reads tableShape.reader IsTable := by
  refine tableShape_hasSlots.reads_reader.congr fun t d => ?_
  constructor
  · rintro ⟨ms, m, hms, hm, hfinish⟩
    simp only [Holds, tableSlots, List.forall_mem_cons] at hm
    obtain ⟨ht, hn, hf, -⟩ := hm
    simp only [tableShape, bind_eq_ok_iff, need_eq_ok_iff] at hfinish
    obtain ⟨tag, et, name, en, hd⟩ := hfinish
    cases hd
    rw [et] at ht
    rw [en] at hn
    exact .mk hms ht hn hf
  · rintro ⟨hms, ht, hn, hf⟩
    refine ⟨_, ⟨some _, some _, _⟩, hms, ?_, rfl⟩
    simp only [Holds, tableSlots, List.forall_mem_cons]
    exact ⟨ht, hn, hf, by simp⟩

/-! ## Sets and documents -/

def setSlots : List (Slot SetMembers) :=
  [{ name := "read", writes := IsList IsTable, reader := list tableShape.reader
     get := SetMembers.read, set := fun ts m => { m with read := some ts } },
   { name := "definition", writes := IsList IsTable, reader := list tableShape.reader
     get := SetMembers.definition, set := fun ts m => { m with definition := some ts } }]

theorem setShape_hasSlots : setShape.HasSlots setSlots where
  members := rfl
  nonempty := by simp [setShape]
  distinct := by decide
  reads := by
    simp only [setSlots, List.forall_mem_cons]
    exact ⟨reads_list reads_table, reads_list reads_table, by simp⟩
  has_eq := by
    simp only [setSlots, List.forall_mem_cons]
    exact ⟨fun _ => rfl, fun _ => rfl, by simp⟩
  read_eq := by
    simp only [setSlots, List.forall_mem_cons]
    exact ⟨fun _ => rfl, fun _ => rfl, by simp⟩
  get_none := by simp [setSlots, setShape]
  get_set := by simp [setSlots]
  get_set_ne := by simp [setSlots]
  ext := by
    rintro ⟨⟩ ⟨⟩
    simp [setSlots]

theorem reads_set : Reads setShape.reader IsSet := by
  refine setShape_hasSlots.reads_reader.congr fun t d => ?_
  constructor
  · rintro ⟨ms, m, hms, hm, hfinish⟩
    simp only [Holds, setSlots, List.forall_mem_cons] at hm
    obtain ⟨hr, hd, -⟩ := hm
    cases hfinish
    exact .mk hms hr hd
  · rintro ⟨hms, hr, hd⟩
    refine ⟨_, ⟨_, _⟩, hms, ?_, rfl⟩
    simp only [Holds, setSlots, List.forall_mem_cons]
    exact ⟨hr, hd, by simp⟩

theorem declarations_eq_ok_iff {document : String} {d : Declarations} :
    declarations document = .ok d ↔ Writes document d := by
  unfold declarations ofTokens
  constructor
  · intro h
    obtain ⟨⟨d', rest, hlt⟩, hread, h⟩ := bind_eq_ok_iff.1 h
    obtain ⟨t, post, ht, hd, hrest⟩ := reads_set.sound ⟨hlt, hread⟩
    dsimp only at h
    split at h
    · next hempty =>
      cases h
      rw [hrest, List.isEmpty_iff] at hempty
      exact .mk ht (Json.Token.scan_eq_nil hempty) hd
    · cases h
  · rintro ⟨ht, nothing, hd⟩
    obtain ⟨hlt, hread⟩ := reads_set.complete hd ht (nothing.delimited (by simp [Json.Delimited]))
    have ended := nothing.scan_eq
    rw [scan, ← List.isEmpty_iff] at ended
    exact bind_eq_ok_iff.2 ⟨_, hread, if_pos ended⟩

theorem writes_unique {document : String} {d d' : Declarations} (h : Writes document d)
    (h' : Writes document d') : d' = d :=
  Except.ok.inj ((declarations_eq_ok_iff.2 h').symm.trans (declarations_eq_ok_iff.2 h))

end Document

/-- A document is malformed exactly if it writes no declarations.  If it writes some it writes no
others, and what becomes of it, a table set or a refusal, is what becomes of them. -/
theorem document_read_as_written (document : String) :
    ((∃ reason, TableSet.ofDocument document = .error (.malformed reason)) ↔
      ¬∃ d, Document.Writes document d) ∧
    ∀ d, Document.Writes document d →
      (∀ d', Document.Writes document d' → d' = d) ∧
      TableSet.ofDocument document = TableSet.ofDeclarations d := by
  have written : ∀ d, Document.Writes document d →
      TableSet.ofDocument document = TableSet.ofDeclarations d := by
    intro d h
    unfold TableSet.ofDocument
    rw [Document.declarations_eq_ok_iff.2 h]
  refine ⟨⟨?_, ?_⟩, fun d h => ⟨fun d' h' => Document.writes_unique h h', written d h⟩⟩
  · rintro ⟨reason, h⟩ ⟨d, hd⟩
    rw [written d hd] at h
    exact notMalformed_ofDeclarations d reason h
  · intro h
    cases hd : Document.declarations document with
    | ok d => exact absurd ⟨d, Document.declarations_eq_ok_iff.1 hd⟩ h
    | error fault =>
      refine ⟨fault.message, ?_⟩
      unfold TableSet.ofDocument
      rw [hd]

/-- A set of one table, written as lists throughout and with an escape. -/
theorem writes_rows :
    Document.Writes " [[[\"t\", \"\\u0061\"]]]\n" ⟨[⟨"t", "a", []⟩], []⟩ := by
  have t : Json.StringSpelled "t" ['"', 't', '"'] :=
    .mk (.more (.plain (by decide) (by decide) (by decide)) .close)
  have unit : Json.CodeUnit 'a'.toNat ['0', '0', '6', '1'] :=
    .mk (i := 0) (j := 0) (k := 6) (l := 1) ⟨by decide, .inl rfl⟩ ⟨by decide, .inl rfl⟩
      ⟨by decide, .inl rfl⟩ ⟨by decide, .inl rfl⟩
  have a : Json.StringSpelled "a" ['"', '\\', 'u', '0', '0', '6', '1', '"'] :=
    .mk (.more (.unit unit) .close)
  have spelled : (Json.Tree.list [.list [.list [.string "t", .string "a"]]]).Spelled
      [' ', '[', '[', '[', '"', 't', '"', ',', ' ', '"', '\\', 'u', '0', '0', '6', '1', '"', ']',
        ']', ']', '\n'] ['\n'] :=
    .list (.more (by decide) .none)
      (.list .none
        (.list .none (.string .none t)
          (.more .none (.string (.more (by decide) .none) a) (.close .none)))
        (.close .none))
      (.close .none)
  have row : Document.IsTable (.list [.string "t", .string "a"]) ⟨"t", "a", []⟩ :=
    .mk (.list (by decide)) (.present (.head _) .mk) (.present (.tail _ (.head _)) .mk)
      (.absent (by simp))
  exact .mk spelled (.more (by decide) .none)
    (.mk (.list (by decide)) (.present (.head _) (.mk (.cons row .nil))) (.absent (by simp)))

theorem document_read_as_written_rows :
    Document.Writes " [[[\"t\", \"\\u0061\"]]]\n" ⟨[⟨"t", "a", []⟩], []⟩ ∧
      TableSet.ofDocument " [[[\"t\", \"\\u0061\"]]]\n" =
        TableSet.ofDeclarations ⟨[⟨"t", "a", []⟩], []⟩ :=
  ⟨writes_rows, ((document_read_as_written _).2 _ writes_rows).2⟩

end RecordTables
