import RecordTables.Instance.Index
import RecordTables.Proofs.Instance.Run
import RecordTables.Proofs.Record.Rendering

/-!
Records with the same text.

No content of a field can be written so that it passes for another field.  If two records of a table
have the same text, in one state of a program or in different ones, then every field is shown alike
in both, which is `text_tells_fields`.  What is shown tells integers, booleans and texts apart.
-/

namespace RecordTables

/-- Of a field for integers or booleans, what is shown tells what it holds. -/
theorem Field.HoldsPlain.eq_of_render {names names' : RecordNames} {t : Table} {f : Field}
    {c c' : Content} (hf : f.WellFormed t) (hl : f.luaType = .integer ∨ f.luaType = .boolean)
    (h : f.HoldsPlain names c) (h' : f.HoldsPlain names' c')
    (heq : c.render names = c'.render names') : c = c' := by
  rcases hl with hl | hl
  · have ha := hf.arity_of_luaType (by rw [hl]; decide)
    obtain ⟨n, rfl⟩ := h.integer hl ha
    obtain ⟨n', rfl⟩ := h'.integer hl ha
    rw [Content.integer_of_render heq]
  · have ha := hf.arity_of_luaType (by rw [hl]; decide)
    obtain ⟨b, rfl⟩ := h.boolean hl ha
    obtain ⟨b', rfl⟩ := h'.boolean hl ha
    rw [Content.boolean_of_render heq]

theorem Records.Conform.identifiers {d : Declarations} {s : TableSet}
    (hs : TableSet.ofDeclarations d = .ok s) {rs : Records} (h : rs.Conform s) :
    rs.names.Identifiers := by
  intro r name hname
  obtain ⟨record, hr, rfl⟩ := exists_of_names hname
  exact identifiers_of_resolves hs _ (List.mem_map_of_mem (h r record hr).1)

theorem Instance.run_textOf {i : Instance} {r : RecordRef} {record : Record}
    (hr : i.records.get? r = some record) :
    (textOf (.record r)).run.run i = (.ok (record.render i.records.names), i) := by
  have hrender : i.records.render r = .ok (record.render i.records.names) := by
    unfold Records.render
    rw [hr]
  show ((getThe Instance : Action Instance) >>= fun i =>
    Action.ofRefusal (i.records.render r)).run.run i = _
  rw [run_bind_ok (Action.run_getThe i), Action.run_ofRefusal, hrender]

/-- Records of a table with the same text show the same for every field.  So they hold the same
integers and booleans, and what is a string in one of them is a string in the other, and the same
one where both are texts. -/
theorem text_tells_fields {d : Declarations} {s : TableSet}
    (hs : TableSet.ofDeclarations d = .ok s) {moves moves' : List Move}
    (hm : ∀ m ∈ moves, m.Within s) (hm' : ∀ m ∈ moves', m.Within s) {i j : Instance}
    (hi : i = Instance.created.after moves) (hj : j = Instance.created.after moves')
    {r r' : RecordRef} {t : Table} {values values' : FieldValues}
    (hr : i.records.get? r = some ⟨t, values⟩) (hr' : j.records.get? r' = some ⟨t, values'⟩)
    {text : String} (htext : ((Instance.textOf (.record r)).run.run i).1 = .ok text)
    (htext' : ((Instance.textOf (.record r')).run.run j).1 = .ok text) {f : Field}
    (hf : f ∈ t.fields) :
    (values.get f.name).render i.records.names = (values'.get f.name).render j.records.names ∧
      (f.luaType = .integer ∨ f.luaType = .boolean → values.get f.name = values'.get f.name) ∧
      ∀ a, values.get f.name = .single (.ofText a) →
        ∃ bytes, values'.get f.name = .single (.string bytes) ∧
          ∀ b, bytes = Text.bytesOf b → a = b := by
  have hsound := wellFormed_of_resolves hs
  subst hi hj
  have hconform := conform_after hsound hm
  have hconform' := conform_after hsound hm'
  obtain ⟨ht, hv⟩ := hconform r _ hr
  obtain ⟨_, hv'⟩ := hconform' r' _ hr'
  have hnames := hconform.identifiers hs
  have hnames' := hconform'.identifiers hs
  rw [Instance.run_textOf hr] at htext
  rw [Instance.run_textOf hr'] at htext'
  have hsame := Except.ok.inj (htext.trans htext'.symm)
  have hshown :=
    Record.render_inj hnames hnames' (fieldIdentifiers_of_resolves hs t ht) hsame f hf
  refine ⟨hshown, fun hl => ?_, fun a ha => ?_⟩
  · have hplain : f.luaType ≠ .conditional := by
      rcases hl with hl | hl <;> rw [hl] <;> decide
    exact Field.HoldsPlain.eq_of_render ((hsound.tables t ht).fields f hf) hl
      ((hv f hf).plain hplain) ((hv' f hf).plain hplain) hshown
  · rw [ha] at hshown
    exact Content.string_of_render hnames' hshown

def noteDeclarations : Declarations where
  read := [⟨"note", "note_t", [⟨"page", none, some "uint8", .integer, none, none, []⟩,
    ⟨"label", none, some "string", .string, none, none, []⟩]⟩]
  definition := []

def noteTable : Table where
  tag := "note"
  name := "note_t"
  origin := .read
  fields := [⟨"page", "page", .integer, some (.scalar .uint8), .one, none⟩,
    ⟨"label", "label", .string, some (.scalar .string), .one, none⟩]

def noteSet : TableSet := ⟨[noteTable]⟩

/-- Two notes are made.  The label of the first is no text, and that of the second is the character
which is shown for it. -/
def noteMoves : List Move :=
  [.call (.accessor Instance.globals noteTable .create) [.integer 4, .string [0xFF]],
    .call (.accessor Instance.globals noteTable .create) [.integer 4, .string [0xEF, 0xBF, 0xBD]]]

theorem noteMoves_within : ∀ m ∈ noteMoves, m.Within noteSet := by
  have hcreate : ∀ args, (Move.call (.accessor Instance.globals noteTable .create) args).Within
      noteSet := fun args =>
    Function.belongs_iff.2 ⟨noteTable, List.mem_cons_self, Instance.globals, .create, rfl, trivial⟩
  intro m hm
  simp only [noteMoves, List.mem_cons, List.not_mem_nil, or_false] at hm
  rcases hm with rfl | rfl
  · exact hcreate _
  · exact hcreate _

def noteValues (label : List UInt8) : FieldValues :=
  ⟨[("label", .single (.string label)), ("page", .single (.integer 4))]⟩

theorem text_tells_fields_notes :
    TableSet.ofDeclarations noteDeclarations = .ok noteSet ∧ (∀ m ∈ noteMoves, m.Within noteSet) ∧
      (noteValues [0xFF]).get "label" ≠ (noteValues [0xEF, 0xBF, 0xBD]).get "label" ∧
      ((Instance.textOf (.record ⟨0⟩)).run.run (Instance.created.after noteMoves)).1 =
        ((Instance.textOf (.record ⟨1⟩)).run.run (Instance.created.after noteMoves)).1 ∧
      (noteValues [0xFF]).get "page" = (noteValues [0xEF, 0xBF, 0xBD]).get "page" := by
  have haccepted : TableSet.ofDeclarations noteDeclarations = .ok noteSet := rfl
  have hfirst : (Instance.created.after noteMoves).records.get? ⟨0⟩ =
      some ⟨noteTable, noteValues [0xFF]⟩ := rfl
  have hsecond : (Instance.created.after noteMoves).records.get? ⟨1⟩ =
      some ⟨noteTable, noteValues [0xEF, 0xBF, 0xBD]⟩ := rfl
  have htext := congrArg Prod.fst (Instance.run_textOf hfirst)
  have htext' := congrArg Prod.fst (Instance.run_textOf hsecond)
  have hpage : noteTable.fields[0] ∈ noteTable.fields := List.mem_cons_self
  have htold := text_tells_fields haccepted noteMoves_within noteMoves_within rfl rfl hfirst hsecond
    htext htext' hpage
  exact ⟨haccepted, noteMoves_within, by decide, htext.trans htext'.symm,
    htold.2.1 (Or.inl rfl)⟩

end RecordTables
