import RecordTables.Proofs.Record.Accepting
import RecordTables.Proofs.Record.Setters

/-!
What a setter changes.

Setting a field leaves of every other field what the field's selector leaves of it
(`get_of_setField`), also where the setter takes the shortcut for a selector that stays the same: what
a conditional field holds was chosen by that very selector.  `SetterEffect` spells this out for the
fields of a record.
-/

namespace RecordTables

/-- A field whose selector is the field at an index. -/
def Field.RuledBy (f : Field) (index : Nat) : Prop :=
  ∃ condition, f.condition = some condition ∧ condition.field = index

/-- How contents come from others when a field is set.  Only the field itself may change, and the
conditional fields that it rules; one of these keeps its value or loses it, and loses it exactly if
the new selector value chooses no case that the value suits. -/
structure SetterEffect (names : RecordNames) (t : Table) (index : Nat) (f : Field) (c : Content)
    (values out : FieldValues) : Prop where
  self : storedForm names t f values c = .ok (out.get f.name)
  others : ∀ g ∈ t.fields, g.name ≠ f.name → ¬g.RuledBy index →
    out.get g.name = values.get g.name
  unset : ∀ g ∈ t.fields, g.RuledBy index → values.get g.name = .nil → out.get g.name = .nil
  ruled : ∀ g ∈ t.fields, ∀ condition, g.condition = some condition → condition.field = index →
    values.get g.name ≠ .nil → ∃ w n, values.get g.name = .single w ∧
      out.get f.name = .single (.integer n) ∧
      (out.get g.name = .single w ∨ out.get g.name = .nil) ∧
      (out.get g.name = .nil ↔ ∀ choice, condition.case? n.toInt = some choice →
        ¬w.Suits names choice.luaType choice.type)
  same : out.get f.name = values.get f.name → ∀ g ∈ t.fields, out.get g.name = values.get g.name

section

variable {names : RecordNames} {t : Table} {index : Nat} {f g : Field} {values : FieldValues}
  {c stored : Content}

/-- A value that is left was there before, and suits the case that the selector chooses now. -/
theorem SetterEffect.left {out : FieldValues} {condition : Condition}
    (h : SetterEffect names t condition.field f c values out) (hg : g ∈ t.fields)
    (hc : g.condition = some condition) {w : Value} (hw : w ≠ .nil)
    (hleft : out.get g.name = .single w) :
    values.get g.name = .single w ∧ ∃ n choice, out.get f.name = .single (.integer n) ∧
      condition.case? n.toInt = some choice ∧ w.Suits names choice.luaType choice.type := by
  have hne : out.get g.name ≠ .nil := by
    rw [hleft]
    exact fun heq => hw (Content.single.inj heq)
  have hheld : values.get g.name ≠ .nil :=
    fun hnil => hne (h.unset g hg ⟨condition, hc, rfl⟩ hnil)
  obtain ⟨w', n, hold, hn, hkeeps, hdropped⟩ := h.ruled g hg condition hc rfl hheld
  obtain rfl : w' = w := by
    rw [hkeeps.resolve_right hne] at hleft
    exact Content.single.inj hleft
  refine ⟨hold, n, ?_⟩
  by_contra hnone
  exact hne (hdropped.2 fun choice hcase hsuits => hnone ⟨choice, hn, hcase, hsuits⟩)

/-! ## What a selector leaves -/

theorem keepsValue_iff (names : RecordNames) {condition : Condition} (hg : g.WellFormed t)
    (hc : g.condition = some condition) (n : Int) {w : Value} (hw : w ≠ .nil) :
    keepsValue names t g condition (some n) (.single w) = true ↔
      ∃ choice, condition.case? n = some choice ∧
        w.Suits names choice.luaType choice.type := by
  have hsuits : ∀ choice, condition.case? n = some choice →
      ((checkSingle names (t.place g) choice.luaType choice.type (.single w)).isOk = true ↔
        w.Suits names choice.luaType choice.type) := by
    intro choice hcase
    have hr := (hg.condition hc).2 choice (List.mem_of_find?_eq_some hcase)
    exact isOk_iff.trans (checkSingle_isOk_iff hr hw)
  constructor
  · intro h
    obtain ⟨choice, hcase, hok⟩ := keepsValue_eq_true h
    exact ⟨choice, hcase, (hsuits choice hcase).1 hok⟩
  · intro h
    obtain ⟨choice, hcase, hw⟩ := h
    unfold keepsValue
    rw [Option.bind_some, hcase]
    exact (hsuits choice hcase).2 hw

theorem Field.kept_of_keeps {condition : Condition} (hc : g.condition = some condition)
    {selector : Option Int} (h : keepsValue names t g condition selector c = true) (index : Nat) :
    g.kept names t index selector c = c := by
  unfold Field.kept
  rw [hc]
  exact if_pos (Or.inr (Or.inr h))

/-- A value is dropped exactly if the selector chooses no case that it suits. -/
theorem Field.kept_eq_nil_iff {condition : Condition} (hg : g.WellFormed t)
    (hc : g.condition = some condition) (n : Int) {w : Value} (hw : w ≠ .nil) :
    g.kept names t condition.field (some n) (.single w) = .nil ↔
      ∀ choice, condition.case? n = some choice → ¬w.Suits names choice.luaType choice.type := by
  have hkeeps := keepsValue_iff names hg hc n hw
  constructor
  · intro hnil choice hcase hsuits
    rw [g.kept_of_keeps hc (hkeeps.2 ⟨choice, hcase, hsuits⟩)] at hnil
    exact hw (Content.single.inj hnil)
  · intro hnone
    rcases g.kept_eq hc rfl (.single w) with hnil | ⟨hkeep, _⟩
    · exact hnil
    · obtain ⟨choice, hcase, hsuits⟩ := hkeeps.1 hkeep
      exact absurd hsuits (hnone choice hcase)

/-- What a field holds was chosen by its selector, and stays as long as the selector does. -/
theorem Field.HoldsChosen.kept_eq {condition : Condition}
    (h : g.HoldsChosen names t values c) (hc : g.condition = some condition)
    (hf : t.fields[condition.field]? = some f) {n : Int64}
    (hn : values.get f.name = .single (.integer n)) (index : Nat) :
    g.kept names t index (some n.toInt) c = c := by
  cases h with
  | unset => exact g.kept_nil _
  | chosen hc' hf' hn' hcase hok =>
    rw [hc] at hc'
    cases hc'
    rw [hf] at hf'
    cases hf'
    rw [hn] at hn'
    cases hn'
    refine g.kept_of_keeps hc ?_ index
    unfold keepsValue
    rw [Option.bind_some, hcase]
    exact hok

/-! ## Setting a field -/

section

variable (ht : t.WellFormed) (hv : values.Conform names t) (hf : t.fields[index]? = some f)

include ht hf

/-- A field that rules another one holds a single integer. -/
theorem Field.RuledBy.integerAt (hg : g ∈ t.fields) (h : g.RuledBy index) :
    t.IntegerAt index f := by
  obtain ⟨k, hk⟩ := (ht.fields g hg).integerAt_of_dependsOn (.inr h)
  rw [hk.eq_of_found hf]
  exact hk

theorem Field.RuledBy.name_ne (hg : g ∈ t.fields) (h : g.RuledBy index) : g.name ≠ f.name :=
  (ht.name_ne_of_dependsOn hg (.inr h) (h.integerAt ht hf hg)).symm

include hv

theorem kept_of_same (hsame : values.get f.name = stored) (hg : g ∈ t.fields) :
    g.kept names t index stored.plainInteger? (values.get g.name) = values.get g.name := by
  cases hc : g.condition with
  | none => exact g.kept_of_none hc _
  | some condition =>
    by_cases hindex : condition.field = index
    · subst hindex
      have hruled : g.RuledBy condition.field := ⟨condition, hc, rfl⟩
      obtain ⟨n, hn⟩ := hv.integerAt (hruled.integerAt ht hf hg)
      rw [← hsame, hn]
      exact ((hv g hg).chosen ((ht.fields g hg).luaType_eq hc)).kept_eq hc hf hn _
    · exact Field.kept_of_ne hc hindex _

/-- A setter stores the form of what it is given, and of each other field it leaves what the field's
selector leaves of it. -/
theorem get_of_setField {u : Update} (h : setField names t index values c = .ok u) :
    ∃ stored, storedForm names t f values c = .ok stored ∧ u.values.get f.name = stored ∧
      ∀ g ∈ t.fields, g.name ≠ f.name →
        u.values.get g.name = g.kept names t index stored.plainInteger? (values.get g.name) := by
  have hmem := List.mem_of_getElem? hf
  unfold setField Table.fieldAt at h
  simp only [hf] at h
  cases hx : storedForm names t f values c with
  | error refusal =>
    rw [hx] at h
    cases h
  | ok stored =>
    simp only [hx] at h
    refine ⟨stored, rfl, ?_⟩
    by_cases hsame : sameInteger (values.get f.name) stored = true
    · rw [if_pos hsame] at h
      cases h
      have heq := eq_of_sameInteger hsame
      refine ⟨FieldValues.get_set_self values f.name stored, fun g hg hname => ?_⟩
      rw [kept_of_same ht hv hf heq hg]
      exact FieldValues.get_set_of_ne values hname stored
    · rw [if_neg hsame] at h
      cases h
      have hclear := (get_clearStale names t index stored.plainInteger? ht.names
        ⟨values.set f.name stored, []⟩).1
      constructor
      · rw [hclear f hmem, FieldValues.get_set_self]
        cases hc : f.condition with
        | none => exact f.kept_of_none hc _
        | some condition =>
          by_cases hindex : condition.field = index
          · exact absurd rfl (Field.RuledBy.name_ne ht hf hmem ⟨condition, hc, hindex⟩)
          · exact Field.kept_of_ne hc hindex _
      · intro g hg hname
        rw [hclear g hg, FieldValues.get_set_of_ne values hname]

theorem setterEffect_of_setField {u : Update} (h : setField names t index values c = .ok u) :
    SetterEffect names t index f c values u.values := by
  obtain ⟨stored, hstored, hself, hothers⟩ := get_of_setField ht hv hf h
  have hmem := List.mem_of_getElem? hf
  constructor
  · rw [hself]
    exact hstored
  · intro g hg hname hruled
    rw [hothers g hg hname]
    cases hc : g.condition with
    | none => exact g.kept_of_none hc _
    | some condition => exact Field.kept_of_ne hc (fun hindex => hruled ⟨condition, hc, hindex⟩) _
  · intro g hg hruled hnil
    rw [hothers g hg (hruled.name_ne ht hf hg), hnil]
    exact g.kept_nil _
  · intro g hg condition hc hindex hne
    subst hindex
    have hruled : g.RuledBy condition.field := ⟨condition, hc, rfl⟩
    have hat := hruled.integerAt ht hf hg
    have hholds := ((storedForm_yields (ht.fields f hmem) hv c).of_ok hstored).1
    obtain ⟨n, hn⟩ := (hholds.plain hat.plain).integer hat.luaType hat.arity
    rw [hothers g hg (hruled.name_ne ht hf hg), hself, hn]
    have hchosen := (hv g hg).chosen ((ht.fields g hg).luaType_eq hc)
    generalize values.get g.name = held at hne hchosen
    cases hchosen with
    | unset => exact absurd rfl hne
    | @chosen _ _ _ _ w =>
      have hw : w ≠ .nil := fun heq => hne (congrArg Content.single heq)
      refine ⟨w, n, rfl, rfl, ?_, Field.kept_eq_nil_iff (ht.fields g hg) hc n.toInt hw⟩
      exact (g.kept_eq hc rfl (.single w)).symm.imp And.right id
  · intro hsame g hg
    by_cases hname : g.name = f.name
    · rw [hname, hsame]
    · rw [hothers g hg hname]
      exact kept_of_same ht hv hf (hsame.symm.trans hself) hg

end

end

end RecordTables
