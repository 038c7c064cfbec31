import RecordTables.Proofs.Number.Writing
import RecordTables.Proofs.Render.Writing
import RecordTables.Proofs.Schema.WellFormed
import RecordTables.Proofs.Text.Codes

/-!
What rendered texts list.

The reference shows an outline of each table and the module its signature, and neither text shows
anything else.  Both can be read off the text: lines and parentheses end where they seem to, since no
name has such a character.  So two sets have the same text exactly if they have the same outlines, or
signatures, in the same order (`texts_eq_iff`).
-/

namespace RecordTables

/-- A table as a rendered module shows it: its name and those of its fields. -/
@[ext] structure Signature where
  name : String
  fields : List String
  deriving DecidableEq

/-- A table as the reference shows it.  Each field comes with its type in words. -/
@[ext] structure Outline where
  name : String
  tag : String
  origin : Origin
  fields : List (String × String)
  deriving DecidableEq

def Table.signature (t : Table) : Signature := ⟨t.name, t.fields.map (·.name)⟩

def Table.outline (t : Table) : Outline :=
  ⟨t.name, t.tag, t.origin, t.fields.map fun f => (f.name, f.describe t)⟩

/-- No tag of a table and no name of an unknown type goes over the end of a line. -/
structure TableSet.Unbroken (s : TableSet) : Prop where
  tags : ∀ t ∈ s.tables, '\n' ∉ t.tag.toList
  types : ∀ t ∈ s.tables, ∀ f ∈ t.fields, ∀ name, .foreign name ∈ f.types → '\n' ∉ name.toList

namespace Render

open Text (PrefixCode append_stop_inj prefixCode_words not_mem_intercalate)

/-- The text that a renderer writes to a string. -/
def written (w : Writing String Unit) : String := (w.run.run "").2

theorem Writes.written_eq {w : Writing String Unit} {fragments : List String}
    (h : Writes w fragments) : written w = joined fragments := by
  rw [written, h.run_eq, run_put]
  exact String.empty_append

theorem toList_joined (fragments : List String) :
    (joined fragments).toList = fragments.flatMap String.toList := String.toList_join

/-! ## Modules -/

namespace Module

open Markdown (line)

/-- The lines of a class with a signature. -/
def signatureLines (module : String) (sig : Signature) : List String :=
  let arguments := String.intercalate ", " sig.fields
  [line s!"-- {sig.name}({arguments})", line s!"{module}.{sig.name} = {sig.name}"]

/-- The names of a signature are identifiers. -/
structure Named (sig : Signature) : Prop where
  name : IsIdentifier sig.name
  fields : ∀ field ∈ sig.fields, IsIdentifier field

theorem signatureLines_append (module : String) (sig : Signature) (x : List Char) :
    (signatureLines module sig).flatMap String.toList ++ x =
      "-- ".toList ++ (sig.name.toList ++ '(' ::
        ([',', ' '].intercalate (sig.fields.map String.toList) ++ ')' :: '\n' ::
          ((line s!"{module}.{sig.name} = {sig.name}").toList ++ x))) := by
  have hcomment : ∀ arguments, (line s!"-- {sig.name}({arguments})").toList =
      ("-- " ++ sig.name ++ "(" ++ arguments ++ ")" ++ "\n").toList := fun _ => rfl
  have hseparator : ", ".toList = [',', ' '] := rfl
  rw [signatureLines, List.flatMap_cons, List.flatMap_singleton, hcomment]
  simp only [String.toList_append, String.toList_intercalate, hseparator, List.append_assoc]
  rfl

theorem intercalate_identifiers_inj {names names' : List String}
    (hnames : ∀ name ∈ names, IsIdentifier name) (hnames' : ∀ name ∈ names', IsIdentifier name)
    (h : [',', ' '].intercalate (names.map String.toList) =
      [',', ' '].intercalate (names'.map String.toList)) : names = names' := by
  have hcode : PrefixCode (fun w => ∃ name, IsIdentifier name ∧ name.toList = w)
      (· ++ ',' :: [' ']) := by
    refine (prefixCode_words [' ']).mono fun w hw => ?_
    obtain ⟨name, hname, rfl⟩ := hw
    exact hname.not_mem rfl
  have hstart : ∀ w, (∃ name, IsIdentifier name ∧ name.toList = w) →
      ∃ c cs, w = c :: cs ∧ c ≠ ',' := by
    intro w hw
    obtain ⟨name, hname, rfl⟩ := hw
    exact hname.exists_eq_cons rfl
  have hwords : ∀ names : List String, (∀ name ∈ names, IsIdentifier name) →
      ∀ w ∈ names.map String.toList, ∃ name, IsIdentifier name ∧ name.toList = w := by
    intro names hnames w hw
    obtain ⟨name, hname, rfl⟩ := List.mem_map.1 hw
    exact ⟨name, hnames name hname, rfl⟩
  have hsame := hcode.intercalate_inj hstart (hwords names hnames) (hwords names' hnames') h
  exact List.map_injective_iff.2 (fun _ _ => String.toList_inj.1) hsame

theorem prefixCode_signatureLines (module : String) :
    PrefixCode Named fun sig => (signatureLines module sig).flatMap String.toList := by
  intro sig hsig sig' hsig' x y h
  have harguments : ∀ sig : Signature, Named sig →
      ')' ∉ [',', ' '].intercalate (sig.fields.map String.toList) := by
    intro sig hsig
    refine not_mem_intercalate (by decide) ?_
    rw [List.forall_mem_map]
    exact fun field hfield => (hsig.fields field hfield).not_mem rfl
  simp only [signatureLines_append] at h
  obtain ⟨hname, h⟩ := append_stop_inj (hsig.name.not_mem rfl) (hsig'.name.not_mem rfl)
    (List.append_cancel_left h)
  obtain ⟨hfields, h⟩ := append_stop_inj (harguments sig hsig) (harguments sig' hsig') h
  have hsame : sig = sig' := by
    ext1
    · exact String.toList_inj.1 hname
    · exact intercalate_identifiers_inj hsig.fields hsig'.fields hfields
  subst hsame
  exact ⟨rfl, List.append_cancel_left (List.cons.inj h).2⟩

theorem named_signature {d : Declarations} {s : TableSet}
    (hs : TableSet.ofDeclarations d = .ok s) : ∀ sig ∈ s.tables.map Table.signature, Named sig := by
  rw [List.forall_mem_map]
  intro t ht
  refine ⟨identifiers_of_resolves hs t.name (List.mem_map_of_mem ht), ?_⟩
  show ∀ name ∈ t.fields.map (·.name), IsIdentifier name
  rw [List.forall_mem_map]
  exact fieldIdentifiers_of_resolves hs t ht

theorem toList_render (s : TableSet) (module : String) :
    (render s module).toList =
      ("-- generated by wasmtab-gen; do not edit\n".toList ++
        (line s!"local {module} = \x7b\x7d").toList ++ ['\n']) ++
      ((s.tables.map Table.signature).flatMap
          (fun sig => (signatureLines module sig).flatMap String.toList) ++
        '\n' :: (line s!"return {module}").toList) := by
  have hblank : (line "").toList = ['\n'] := rfl
  have hheader : (line "-- generated by wasmtab-gen; do not edit").toList =
      "-- generated by wasmtab-gen; do not edit\n".toList := rfl
  have hentries : ((s.tables.flatMap (entry module)).flatMap String.toList) =
      (s.tables.map Table.signature).flatMap
        (fun sig => (signatureLines module sig).flatMap String.toList) := by
    rw [List.flatMap_assoc, List.flatMap_map]
    rfl
  rw [render, toList_joined, fragments]
  simp only [List.flatMap_append, hentries, List.flatMap_cons, List.flatMap_nil, hblank, hheader,
    List.append_nil, List.append_assoc]
  rfl

/-- The text of a module tells the signatures of its classes, and only these. -/
theorem render_eq_iff {d d' : Declarations} {s s' : TableSet}
    (hs : TableSet.ofDeclarations d = .ok s) (hs' : TableSet.ofDeclarations d' = .ok s')
    (module : String) :
    render s module = render s' module ↔
      s.tables.map Table.signature = s'.tables.map Table.signature := by
  have hstart : ∀ sig, Named sig → ∃ c cs,
      (signatureLines module sig).flatMap String.toList = c :: cs ∧ c ≠ '\n' := by
    intro sig _
    have hlines := signatureLines_append module sig []
    rw [List.append_nil] at hlines
    exact ⟨'-', _, hlines, by decide⟩
  rw [← String.toList_inj, toList_render, toList_render]
  constructor
  · intro h
    have hbody := List.append_cancel_left h
    exact ((prefixCode_signatureLines module).flatMap_inj hstart (named_signature hs)
      (named_signature hs') hbody).1
  · intro h
    rw [h]

end Module

/-! ## References -/

namespace Markdown

/-- The lines of the getters of a table with an outline. -/
def getterLines (o : Outline) : List String :=
  o.fields.map fun f => line s!"{o.name}:{f.1}() -- return type: {f.2}<br/>"

/-- The lines of the setters of a table with an outline. -/
def setterLines (o : Outline) : List String :=
  o.fields.map fun f =>
    line s!"{o.name}:{setterName f.1}(v) -- arg type: {f.2}, returns the record<br/>"

/-- The lines after the getters of a table with an outline. -/
def remainingLines (o : Outline) : List String :=
  let arguments := String.intercalate ", " (o.fields.map (·.1))
  [line "### _setter fields_:"] ++ setterLines o ++ [line "", line "### _constructors_:",
    line s!"{o.name}.new({arguments}) -- missing args take defaults<br/>",
    line s!"{o.name}({arguments}) -- lazy constructor<br/>", line ""]

/-- The section of a table with an outline. -/
def outlineLines (o : Outline) : List String :=
  [line s!"## __{o.name}__:", line "", line s!"_{originName o.origin}, tag `{o.tag}`_", line "",
    line "### _getter fields_:"] ++ getterLines o ++ line "" :: remainingLines o

theorem tableSection_eq (t : Table) : tableSection t = outlineLines t.outline := by
  have hgetters : t.fields.map (getter t) = getterLines t.outline := by
    rw [getterLines, Table.outline, List.map_map]
    rfl
  have hsetters : t.fields.map (setter t) = setterLines t.outline := by
    rw [setterLines, Table.outline, List.map_map]
    rfl
  have harguments : argumentList t = String.intercalate ", " (t.outline.fields.map (·.1)) := by
    rw [argumentList, Table.outline, List.map_map]
    rfl
  rw [tableSection, hgetters, hsetters, harguments]
  simp only [outlineLines, remainingLines, List.append_assoc, List.cons_append, List.nil_append]
  rfl

/-- The names of an outline are identifiers, and nothing in it goes over the end of a line. -/
structure Plain (o : Outline) : Prop where
  name : IsIdentifier o.name
  tag : '\n' ∉ o.tag.toList
  fields : ∀ f ∈ o.fields, IsIdentifier f.1 ∧ '\n' ∉ f.2.toList

theorem getterLine_append (name : String) (f : String × String) (x : List Char) :
    (line s!"{name}:{f.1}() -- return type: {f.2}<br/>").toList ++ x =
      name.toList ++ ':' :: (f.1.toList ++ '(' :: (") -- return type: ".toList ++
        ((f.2.toList ++ "<br/>".toList) ++ '\n' :: x))) := by
  show (name ++ ":" ++ f.1 ++ "() -- return type: " ++ f.2 ++ "<br/>" ++ "\n").toList ++ x = _
  simp [String.toList_append]

/-- The line of a getter tells the name of the field and its type. -/
theorem prefixCode_getterLine (name : String) :
    PrefixCode (fun f : String × String => IsIdentifier f.1 ∧ '\n' ∉ f.2.toList)
      fun f => (line s!"{name}:{f.1}() -- return type: {f.2}<br/>").toList := by
  intro f hf g hg x y h
  have hend : ∀ f : String × String, '\n' ∉ f.2.toList → '\n' ∉ f.2.toList ++ "<br/>".toList :=
    fun f hf => List.not_mem_append hf (by decide)
  simp only [getterLine_append] at h
  have hline := (List.cons.inj (List.append_cancel_left h)).2
  obtain ⟨hfield, hline⟩ := append_stop_inj (hf.1.not_mem rfl) (hg.1.not_mem rfl) hline
  have hline := List.append_cancel_left hline
  obtain ⟨htype, hxy⟩ := append_stop_inj (hend f hf.2) (hend g hg.2) hline
  have hsame : f = g := by
    ext1
    · exact String.toList_inj.1 hfield
    · exact String.toList_inj.1 (List.append_cancel_right htype)
  exact ⟨hsame, hxy⟩

theorem outlineLines_append (o : Outline) (x : List Char) :
    (outlineLines o).flatMap String.toList ++ x =
      "## __".toList ++ ((o.name.toList ++ "__:".toList) ++ '\n' :: '\n' :: '_' ::
        ((originName o.origin).toList ++ (", tag `".toList ++
          ((o.tag.toList ++ "`_".toList) ++ '\n' :: ("\n### _getter fields_:\n".toList ++
            ((getterLines o).flatMap String.toList ++
              '\n' :: ((remainingLines o).flatMap String.toList ++ x))))))) := by
  have htitle : (line s!"## __{o.name}__:").toList =
      ("## __" ++ o.name ++ "__:" ++ "\n").toList := rfl
  have horigin : (line s!"_{originName o.origin}, tag `{o.tag}`_").toList =
      ("_" ++ originName o.origin ++ ", tag `" ++ o.tag ++ "`_" ++ "\n").toList := rfl
  simp only [outlineLines, List.flatMap_append, List.flatMap_cons, List.flatMap_nil, htitle,
    horigin, String.toList_append, List.append_assoc]
  rfl

theorem prefixCode_originName :
    PrefixCode (fun _ : Origin => True) fun origin => (originName origin).toList := by
  have hread : ∀ x y, (originName .read).toList ++ x ≠ (originName .definition).toList ++ y := by
    intro x y h
    exact absurd (List.cons.inj h).1 (by decide)
  intro a _ b _ x y h
  cases a with
  | read =>
    cases b with
    | read => exact ⟨rfl, List.append_cancel_left h⟩
    | definition => exact absurd h (hread x y)
  | definition =>
    cases b with
    | read => exact absurd h.symm (hread y x)
    | definition => exact ⟨rfl, List.append_cancel_left h⟩

/-- The section of a table tells the outline of the table. -/
theorem prefixCode_outlineLines :
    PrefixCode Plain fun o => (outlineLines o).flatMap String.toList := by
  intro o ho o' ho' x y h
  have htitle : ∀ o, Plain o → '\n' ∉ o.name.toList ++ "__:".toList := fun o ho =>
    List.not_mem_append (ho.name.not_mem rfl) (by decide)
  have htag : ∀ o, Plain o → '\n' ∉ o.tag.toList ++ "`_".toList := fun o ho =>
    List.not_mem_append ho.tag (by decide)
  have hgetters : ∀ o : Outline, (getterLines o).flatMap String.toList =
      o.fields.flatMap fun f => (line s!"{o.name}:{f.1}() -- return type: {f.2}<br/>").toList :=
    fun o => List.flatMap_map ..
  have hstart : ∀ f : String × String, IsIdentifier f.1 ∧ '\n' ∉ f.2.toList → ∃ c cs,
      (line s!"{o.name}:{f.1}() -- return type: {f.2}<br/>").toList = c :: cs ∧ c ≠ '\n' := by
    intro f _
    obtain ⟨c, cs, hlist, hc⟩ := ho.name.exists_eq_cons (c := '\n') rfl
    have hline := getterLine_append o.name f []
    rw [List.append_nil, hlist] at hline
    exact ⟨c, _, hline, hc⟩
  simp only [outlineLines_append] at h
  -- the title and the tag end with their lines, the getters with an empty one
  obtain ⟨hname, hrest⟩ := append_stop_inj (htitle o ho) (htitle o' ho')
    (List.append_cancel_left h)
  obtain ⟨horigin, hrest⟩ := prefixCode_originName o.origin trivial o'.origin trivial _ _
    (List.cons.inj (List.cons.inj hrest).2).2
  obtain ⟨htag, hrest⟩ := append_stop_inj (htag o ho) (htag o' ho')
    (List.append_cancel_left hrest)
  have hname := String.toList_inj.1 (List.append_cancel_right hname)
  have htag := String.toList_inj.1 (List.append_cancel_right htag)
  have hrest := List.append_cancel_left hrest
  rw [hgetters, hgetters, ← hname] at hrest
  obtain ⟨hfields, hrest⟩ := (prefixCode_getterLine o.name).flatMap_inj hstart ho.fields ho'.fields
    hrest
  have hsame : o = o' := Outline.ext hname htag horigin hfields
  subst hsame
  exact ⟨rfl, List.append_cancel_left hrest⟩

/-! ### Types in words -/

theorem newline_not_mem_describeSingle {luaType : LuaType} {type : ValueType}
    (htype : '\n' ∉ type.describe.toList) : '\n' ∉ (describeSingle luaType type).toList := by
  have hname : '\n' ∉ luaType.name.toList := by cases luaType <;> decide
  have hboth : '\n' ∉ (luaType.name ++ " (" ++ type.describe ++ ")").toList := by
    simp [String.toList_append, hname, htype]
  cases type with
  | table name => exact htype
  | foreign name => exact hboth
  | scalar s =>
    simp only [describeSingle]
    by_cases hs : s.name = luaType.name
    · rw [if_pos hs]
      exact hname
    · rw [if_neg hs]
      exact hboth

theorem newline_not_mem_fieldName {t : Table} (hfields : ∀ g ∈ t.fields, '\n' ∉ g.name.toList)
    (index : Nat) : '\n' ∉ (t.fieldName index).toList := by
  unfold Table.fieldName
  split
  · next g hg => exact hfields g (List.mem_of_getElem? hg)
  · decide

theorem newline_not_mem_int (n : Int) : '\n' ∉ (toString n).toList := by
  intro h
  exact absurd (isNumeric_of_mem_int h) (by decide)

/-- The words for a type stay on one line if the names in them do. -/
theorem newline_not_mem_describe {t : Table} {f : Field}
    (hfields : ∀ g ∈ t.fields, '\n' ∉ g.name.toList)
    (htypes : ∀ type ∈ f.types, '\n' ∉ type.describe.toList) :
    '\n' ∉ (f.describe t).toList := by
  have hname := newline_not_mem_fieldName hfields
  cases hc : f.condition with
  | some condition =>
    have hcases : '\n' ∉ (String.intercalate ", " (condition.cases.map Case.describe)).toList := by
      rw [String.toList_intercalate]
      refine not_mem_intercalate (by decide) ?_
      rw [List.forall_mem_map, List.forall_mem_map]
      intro choice hchoice
      have hsingle : '\n' ∉ (describeSingle choice.luaType choice.type).toList := by
        refine newline_not_mem_describeSingle (htypes choice.type ?_)
        rw [Field.types, hc]
        exact List.mem_append_right _ (by simpa using ⟨choice, hchoice, rfl⟩)
      show '\n' ∉ (toString choice.selector ++ " => " ++ _).toList
      simp only [String.toList_append, List.mem_append, not_or]
      exact ⟨⟨newline_not_mem_int _, by decide⟩, hsingle⟩
    simp only [Field.describe, hc]
    show '\n' ∉ ("by " ++ t.fieldName condition.field ++ " (" ++ _ ++ ")").toList
    simp only [String.toList_append, List.mem_append, not_or]
    exact ⟨⟨⟨⟨by decide, hname _⟩, by decide⟩, hcases⟩, by decide⟩
  | none =>
    cases ht : f.type with
    | none =>
      simp only [Field.describe, hc, ht]
      cases f.luaType <;> decide
    | some type =>
      have htype : '\n' ∉ type.describe.toList := by
        refine htypes type ?_
        rw [Field.types, ht]
        exact List.mem_append_left _ List.mem_cons_self
      simp only [Field.describe, hc, ht]
      cases f.arity with
      | one => exact newline_not_mem_describeSingle htype
      | fixed n =>
        show '\n' ∉ ("table of " ++ toString n ++ " " ++ type.describe).toList
        simp only [String.toList_append, List.mem_append, not_or]
        exact ⟨⟨⟨by decide, newline_not_mem_int n⟩, by decide⟩, htype⟩
      | counted index =>
        show '\n' ∉ ("table of " ++ type.describe ++ " (length in " ++ t.fieldName index ++
          ")").toList
        simp only [String.toList_append, List.mem_append, not_or]
        exact ⟨⟨⟨⟨by decide, htype⟩, by decide⟩, hname index⟩, by decide⟩
      | unbounded =>
        show '\n' ∉ ("table of " ++ type.describe).toList
        simp only [String.toList_append, List.mem_append, not_or]
        exact ⟨by decide, htype⟩

/-! ### References of accepted sets -/

theorem plain_outline {d : Declarations} {s : TableSet} (hs : TableSet.ofDeclarations d = .ok s)
    (hunbroken : s.Unbroken) : ∀ o ∈ s.tables.map Table.outline, Plain o := by
  rw [List.forall_mem_map]
  intro t ht
  have hfields := fieldIdentifiers_of_resolves hs t ht
  refine ⟨identifiers_of_resolves hs t.name (List.mem_map_of_mem ht), hunbroken.tags t ht, ?_⟩
  show ∀ f ∈ t.fields.map fun f => (f.name, f.describe t), IsIdentifier f.1 ∧ '\n' ∉ f.2.toList
  rw [List.forall_mem_map]
  intro f hf
  refine ⟨hfields f hf, newline_not_mem_describe (fun g hg => (hfields g hg).not_mem rfl) ?_⟩
  intro type htype
  cases type with
  | scalar s => cases s <;> decide
  | table name =>
    exact (identifiers_of_resolves hs name (referred_of_resolves hs ht hf htype)).not_mem rfl
  | foreign name => exact hunbroken.types t ht f hf name htype

theorem toList_render (s : TableSet) :
    (render s).toList = introduction.flatMap String.toList ++
      (s.tables.map Table.outline).flatMap fun o => (outlineLines o).flatMap String.toList := by
  have hsections : tableSection = outlineLines ∘ Table.outline := funext tableSection_eq
  rw [render, toList_joined, fragments, List.flatMap_append, List.flatMap_assoc, List.flatMap_map,
    hsections]
  rfl

/-- The text of a reference tells the outlines of its tables, and only these. -/
theorem render_eq_iff {d d' : Declarations} {s s' : TableSet}
    (hs : TableSet.ofDeclarations d = .ok s) (hs' : TableSet.ofDeclarations d' = .ok s')
    (hu : s.Unbroken) (hu' : s'.Unbroken) :
    render s = render s' ↔ s.tables.map Table.outline = s'.tables.map Table.outline := by
  have hstart : ∀ o, Plain o → ∃ c cs,
      (outlineLines o).flatMap String.toList = c :: cs ∧ c ≠ '\n' := by
    intro o _
    have hlines := outlineLines_append o []
    rw [List.append_nil] at hlines
    exact ⟨'#', _, hlines, by decide⟩
  rw [← String.toList_inj, toList_render, toList_render]
  constructor
  · intro h
    have hsections := congrArg (· ++ ['\n']) (List.append_cancel_left h)
    exact (prefixCode_outlineLines.flatMap_inj hstart (plain_outline hs hu) (plain_outline hs' hu')
      hsections).1
  · intro h
    rw [h]

end Markdown

/-! ## Both texts -/

/-- The text of a module is that of another set exactly if the sets have the same signatures, and the
text of a reference exactly if they have the same outlines. -/
theorem texts_eq_iff {d d' : Declarations} {s s' : TableSet}
    (hs : TableSet.ofDeclarations d = .ok s) (hs' : TableSet.ofDeclarations d' = .ok s') :
    (∀ module, written (Module.write s module) = written (Module.write s' module) ↔
        s.tables.map Table.signature = s'.tables.map Table.signature) ∧
      (s.Unbroken → s'.Unbroken →
        (written (Markdown.write s) = written (Markdown.write s') ↔
          s.tables.map Table.outline = s'.tables.map Table.outline)) := by
  constructor
  · intro module
    rw [(Module.writes_write s module).written_eq, (Module.writes_write s' module).written_eq]
    exact Module.render_eq_iff hs hs' module
  · intro hu hu'
    rw [(Markdown.writes_write s).written_eq, (Markdown.writes_write s').written_eq]
    exact Markdown.render_eq_iff hs hs' hu hu'

/-- A table with a tag and a field of an unknown type. -/
def markDeclarations (tag : String) : Declarations where
  read := [⟨tag, "mark_t", [⟨"owner", none, some "handle", .lightUserData, none, none, []⟩]⟩]
  definition := []

def markSet (tag : String) : TableSet where
  tables := [⟨tag, "mark_t", .read,
    [⟨"owner", "owner", .lightUserData, some (.foreign "handle"), .one, none⟩]⟩]

theorem markSet_unbroken {tag : String} (h : '\n' ∉ tag.toList) : (markSet tag).Unbroken where
  tags := by
    intro t ht
    rw [List.mem_singleton.1 ht]
    exact h
  types := by
    intro t ht f hf name hname
    obtain rfl := List.mem_singleton.1 ht
    obtain rfl := List.mem_singleton.1 hf
    obtain rfl : name = "handle" := by simpa [Field.types] using hname
    decide

/-- A tag that looks like the end of its line is told from one without. -/
theorem texts_tell_marks :
    TableSet.ofDeclarations (markDeclarations "m") = .ok (markSet "m") ∧
      TableSet.ofDeclarations (markDeclarations "m`_") = .ok (markSet "m`_") ∧
      (markSet "m").Unbroken ∧ (markSet "m`_").Unbroken ∧
      written (Module.write (markSet "m") "tables") =
        written (Module.write (markSet "m`_") "tables") ∧
      written (Markdown.write (markSet "m")) ≠ written (Markdown.write (markSet "m`_")) := by
  have hm : TableSet.ofDeclarations (markDeclarations "m") = .ok (markSet "m") := rfl
  have hm' : TableSet.ofDeclarations (markDeclarations "m`_") = .ok (markSet "m`_") := rfl
  have hu : (markSet "m").Unbroken := markSet_unbroken (by decide)
  have hu' : (markSet "m`_").Unbroken := markSet_unbroken (by decide)
  obtain ⟨hmodule, hreference⟩ := texts_eq_iff hm hm'
  refine ⟨hm, hm', hu, hu', (hmodule "tables").2 rfl, fun h => ?_⟩
  exact absurd ((hreference hu hu').1 h) (by decide)

end Render
end RecordTables
