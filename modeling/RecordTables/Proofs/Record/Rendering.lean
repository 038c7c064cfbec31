import RecordTables.Proofs.Number.Writing
import RecordTables.Proofs.Record.Conforming
import RecordTables.Proofs.Text.Quoted
import RecordTables.Proofs.Text.Utf8

/-!
What the text of a record tells.

A content is shown in quotes, or without any quote or comma.  So the text of a field ends where the
next field begins, whatever the contents are, and two records of a table with the same text show the
same for every field (`Record.render_inj`).  Of an integer, of a boolean and of a string that is text
this tells the content itself.
-/

namespace RecordTables

open Text (PrefixCode append_stop_inj)

/-! ## Texts of contents -/

namespace Text

/-- A text without quotes and commas. -/
structure Plain (text : List Char) : Prop where
  quote : '"' ∉ text
  comma : ',' ∉ text

theorem Plain.of_all {text : List Char} {p : Char → Bool} (h : ∀ c ∈ text, p c)
    (hq : p '"' = false) (hc : p ',' = false) : Plain text where
  quote := fun hmem => Bool.false_ne_true (hq.symm.trans (h _ hmem))
  comma := fun hmem => Bool.false_ne_true (hc.symm.trans (h _ hmem))

theorem Plain.of_alpha {text : String} (h : text.toList.all Char.isAlpha = true) :
    Plain text.toList :=
  .of_all (List.all_eq_true.1 h) rfl rfl

theorem Plain.append {a b : List Char} (ha : Plain a) (hb : Plain b) : Plain (a ++ b) where
  quote := List.not_mem_append ha.quote hb.quote
  comma := List.not_mem_append ha.comma hb.comma

/-- A text that is quoted or plain. -/
inductive Framed : List Char → Prop
  | quoted (text : List Char) : Framed (Quoted.encode text)
  | plain {text : List Char} (h : Plain text) : Framed text

/-- A plain text does not begin as a quoted one does. -/
theorem Plain.append_ne_encode {a text x y : List Char} (h : Plain a) :
    a ++ ',' :: x ≠ Quoted.encode text ++ y := by
  rw [Quoted.encode_append]
  intro heq
  cases a with
  | nil => exact absurd (List.cons.inj heq).1 (by decide)
  | cons c a =>
    have hc : c = '"' := (List.cons.inj heq).1
    exact h.quote (hc ▸ List.mem_cons_self)

theorem Framed.append_comma_inj {a b x y : List Char} (ha : Framed a) (hb : Framed b)
    (h : a ++ ',' :: x = b ++ ',' :: y) : a = b ∧ x = y := by
  cases ha with
  | quoted =>
    cases hb with
    | quoted =>
      obtain ⟨rfl, hxy⟩ := Quoted.prefixCode_encode _ trivial _ trivial _ _ h
      exact ⟨rfl, (List.cons.inj hxy).2⟩
    | plain hb => exact absurd h.symm hb.append_ne_encode
  | plain ha =>
    cases hb with
    | quoted => exact absurd h ha.append_ne_encode
    | plain hb => exact append_stop_inj ha.comma hb.comma h

end Text

open Text (Plain Framed)

theorem IsIdentifier.plain {text : String} (h : IsIdentifier text) : Plain text.toList where
  quote := h.not_mem rfl
  comma := h.not_mem rfl

/-- The names of the tables of records are identifiers. -/
def RecordNames.Identifiers (names : RecordNames) : Prop :=
  ∀ r name, names r = some name → IsIdentifier name

section

variable {names names' : RecordNames} {c c' : Content}

/-- Whatever is no string is shown without quotes and commas. -/
theorem Value.plain_render (hnames : names.Identifiers) {v : Value}
    (hv : ∀ bytes, v ≠ .string bytes) : Plain (v.render names).toList := by
  cases v with
  | string bytes => exact absurd rfl (hv bytes)
  | boolean b =>
    simp only [render]
    cases b <;> exact .of_alpha rfl
  | integer i => exact .of_all (fun _ => isNumeric_of_mem_int) rfl rfl
  | float x => exact .of_all (fun _ => Decimal.isNumeric_of_mem_text) rfl rfl
  | record r =>
    show Plain ((names r).getD "userdata").toList
    cases hr : names r with
    | none => exact .of_alpha rfl
    | some name => exact (hnames r name hr).plain
  | _ =>
    simp only [render, typeName]
    exact .of_alpha rfl

theorem Content.plain_render (hnames : names.Identifiers)
    (hc : ∀ bytes, c ≠ .single (.string bytes)) : Plain (c.render names).toList := by
  cases c with
  | single v =>
    exact Value.plain_render hnames fun bytes hv => hc bytes (congrArg Content.single hv)
  | sequence items =>
    have hlength : Plain (toString items.length).toList :=
      .of_all (fun _ => isNumeric_of_mem_repr) rfl rfl
    have hopen : Plain "<".toList := ⟨by decide, by decide⟩
    have hclose : Plain " values>".toList := ⟨by decide, by decide⟩
    show Plain ("<" ++ toString items.length ++ " values>").toList
    rw [String.toList_append, String.toList_append]
    exact (hopen.append hlength).append hclose

theorem Content.framed_render (hnames : names.Identifiers) (c : Content) :
    Framed (c.render names).toList := by
  by_cases hstring : ∃ bytes, c = .single (.string bytes)
  · obtain ⟨bytes, rfl⟩ := hstring
    show Framed (String.ofList (Text.Quoted.encode (Text.Utf8.lossy bytes))).toList
    rw [String.toList_ofList]
    exact .quoted _
  · rw [not_exists] at hstring
    exact .plain (plain_render hnames hstring)

/-! ## What is shown of a content -/

/-- What is shown of a string is shown of strings only, and tells it if both are texts. -/
theorem Content.string_of_render (hnames' : names'.Identifiers) {text : String}
    (h : (Content.single (.ofText text)).render names = c'.render names') :
    ∃ bytes, c' = .single (.string bytes) ∧ ∀ text', bytes = Text.bytesOf text' → text = text' := by
  have htext : Text.Quoted.quote text.toList = c'.render names' := by
    rw [← h, ← Text.Utf8.lossy_bytesOf text]
    rfl
  by_cases hstring : ∃ bytes, c' = .single (.string bytes)
  · obtain ⟨bytes, rfl⟩ := hstring
    refine ⟨bytes, rfl, fun text' hbytes => ?_⟩
    have hlossy : text.toList = Text.Utf8.lossy bytes := Text.Quoted.quote_inj htext
    rw [hbytes, Text.Utf8.lossy_bytesOf] at hlossy
    exact String.toList_inj.1 hlossy
  · rw [not_exists] at hstring
    have hquote : '"' ∈ (Text.Quoted.quote text.toList).toList := by
      rw [Text.Quoted.quote, String.toList_ofList]
      exact List.mem_cons_self
    rw [htext] at hquote
    exact absurd hquote (plain_render hnames' hstring).quote

theorem Content.integer_of_render {i j : Int64}
    (h : (Content.single (.integer i)).render names = (Content.single (.integer j)).render names') :
    i = j :=
  Int64.toInt_inj.1 (int_eq_of_repr_eq h)

theorem Content.boolean_of_render {a b : Bool}
    (h : (Content.single (.boolean a)).render names = (Content.single (.boolean b)).render names') :
    a = b := by
  have hshown : (if a then "true" else "false") = if b then "true" else "false" := h
  revert hshown
  cases a <;> cases b <;> decide

end

/-! ## Fields -/

/-- The text of a field, between those of other fields. -/
def Part (word : List Char) : Prop :=
  ∃ (name : String) (shown : List Char), IsIdentifier name ∧ Framed shown ∧
    word = name.toList ++ ' ' :: '=' :: ' ' :: shown

theorem toList_renderField (names : RecordNames) (values : FieldValues) (f : Field) :
    (renderField names values f).toList =
      f.name.toList ++ ' ' :: '=' :: ' ' :: ((values.get f.name).render names).toList := by
  show (f.name ++ " = " ++ (values.get f.name).render names).toList = _
  rw [String.toList_append, String.toList_append, List.append_assoc]
  rfl

theorem part_renderField {names : RecordNames} (hnames : names.Identifiers) (values : FieldValues)
    {f : Field} (hf : IsIdentifier f.name) : Part (renderField names values f).toList :=
  ⟨f.name, _, hf, Content.framed_render hnames _, toList_renderField names values f⟩

theorem prefixCode_part (separator : List Char) :
    PrefixCode Part (· ++ ',' :: separator) := by
  intro word hword word' hword' x y h
  obtain ⟨name, shown, hname, hshown, rfl⟩ := hword
  obtain ⟨name', shown', hname', hshown', rfl⟩ := hword'
  simp only [List.append_assoc, List.cons_append] at h
  obtain ⟨heq, hrest⟩ := append_stop_inj (hname.not_mem rfl) (hname'.not_mem rfl) h
  obtain ⟨hshow, hrest⟩ := hshown.append_comma_inj hshown' (List.cons.inj (List.cons.inj hrest).2).2
  rw [heq, hshow]
  exact ⟨rfl, List.append_cancel_left hrest⟩

theorem Part.exists_eq_cons {word : List Char} (h : Part word) :
    ∃ c cs, word = c :: cs ∧ c ≠ ',' := by
  obtain ⟨name, shown, hname, _, rfl⟩ := h
  obtain ⟨c, cs, hlist, hc⟩ := hname.exists_eq_cons (c := ',') rfl
  rw [hlist]
  exact ⟨c, _, rfl, hc⟩

/-- Two records of a table with the same text show the same for every field. -/
theorem Record.render_inj {names names' : RecordNames} (hnames : names.Identifiers)
    (hnames' : names'.Identifiers) {t : Table} (hfields : ∀ f ∈ t.fields, IsIdentifier f.name)
    {values values' : FieldValues}
    (h : Record.render names ⟨t, values⟩ = Record.render names' ⟨t, values'⟩) :
    ∀ f ∈ t.fields,
      (values.get f.name).render names = (values'.get f.name).render names' := by
  have htext : ∀ names values, Record.render names ⟨t, values⟩ = t.name ++ " \x7b " ++
      String.intercalate ", " (t.fields.map (renderField names values)) ++ " \x7d" := fun _ _ => rfl
  have hparts : ∀ {names : RecordNames}, names.Identifiers → ∀ values,
      ∀ word ∈ (t.fields.map (renderField names values)).map String.toList, Part word := by
    intro names hnames values
    rw [List.forall_mem_map, List.forall_mem_map]
    exact fun f hf => part_renderField hnames values (hfields f hf)
  rw [htext, htext, String.append_left_inj, String.append_right_inj, ← String.toList_inj,
    String.toList_intercalate, String.toList_intercalate] at h
  have hwords := (prefixCode_part [' ']).intercalate_inj (fun _ => Part.exists_eq_cons)
    (hparts hnames values) (hparts hnames' values') h
  rw [List.map_map, List.map_map, List.map_inj_left] at hwords
  intro f hf
  have hword := hwords f hf
  simp only [Function.comp_apply, toList_renderField, List.append_cancel_left_eq, List.cons.injEq,
    true_and] at hword
  exact String.toList_inj.1 hword

end RecordTables
