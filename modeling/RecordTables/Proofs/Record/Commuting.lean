import RecordTables.Proofs.Record.Effect
import RecordTables.Proofs.Record.Settling

/-!
Two fields of a record that are set one after the other.

Whether a field can be set depends on its count and its selector, and these are integers which no
other setter touches.  What a setter does to the other fields is that it drops conditional values,
and a conditional field has one selector.  So two fields can be set in either order, unless one of
them is the count or the selector of the other: `get_setOrKept_comm`.
-/

namespace RecordTables

/-- The contents of a record after its field at an index was set, or as they were if that is
refused. -/
def setOrKept (names : RecordNames) (t : Table) (index : Nat) (c : Content)
    (values : FieldValues) : FieldValues :=
  match setField names t index values c with
  | .ok u => u.values
  | .error _ => values

section

variable {names : RecordNames} {t : Table} {index index' : Nat} {f g h : Field}
  {values values' : FieldValues} {c c' : Content}

/-! ## What a setter asks of a record -/

/-- A setter refuses what has no stored form, and gives the refusal. -/
theorem setField_map_unit (hf : t.fields[index]? = some f) :
    (setField names t index values c).map (fun _ => ()) =
      (storedForm names t f values c).map fun _ => () := by
  unfold setField Table.fieldAt
  simp only [hf]
  cases storedForm names t f values c with
  | error refusal => rfl
  | ok stored =>
    simp only
    split <;> rfl

theorem setOrKept_conform (ht : t.WellFormed) (hv : values.Conform names t)
    (hf : t.fields[index]? = some f) (c : Content) :
    (setOrKept names t index c values).Conform names t := by
  have hset := setField_yields ht hv hf c
  unfold setOrKept
  cases hx : setField names t index values c with
  | error refusal => exact hv
  | ok u => exact (hset.of_ok hx).1

theorem setOrKept_of_error (hf : t.fields[index]? = some f) {refusal : Refusal}
    (hform : storedForm names t f values c = .error refusal) :
    setOrKept names t index c values = values := by
  unfold setOrKept
  rw [setField_eq_error hf hform]

section

variable (ht : t.WellFormed) (hv : values.Conform names t) (hf : t.fields[index]? = some f)

include ht hv hf

theorem get_setOrKept_self {stored : Content}
    (hform : storedForm names t f values c = .ok stored) :
    (setOrKept names t index c values).get f.name = stored := by
  obtain ⟨u, hu⟩ := (setField_isOk_iff hf c).2 ⟨stored, hform⟩
  obtain ⟨stored', hform', hself, _⟩ := get_of_setField ht hv hf hu
  cases hform.symm.trans hform'
  unfold setOrKept
  rw [hu]
  exact hself

theorem get_setOrKept_of_ne {stored : Content} (hform : storedForm names t f values c = .ok stored)
    (hg : g ∈ t.fields) (hne : g.name ≠ f.name) :
    (setOrKept names t index c values).get g.name =
      g.kept names t index stored.plainInteger? (values.get g.name) := by
  obtain ⟨u, hu⟩ := (setField_isOk_iff hf c).2 ⟨stored, hform⟩
  obtain ⟨stored', hform', _, hothers⟩ := get_of_setField ht hv hf hu
  cases hform.symm.trans hform'
  unfold setOrKept
  rw [hu]
  exact hothers g hg hne

/-- A field that another one does not depend on leaves everything that this one depends on. -/
theorem storedForm_setOrKept (hg : g ∈ t.fields) (hd : ¬g.DependsOn index) (c c' : Content) :
    storedForm names t g (setOrKept names t index c values) c' =
      storedForm names t g values c' := by
  refine storedForm_congr c' fun k count hk hcount => ?_
  obtain ⟨count', hat⟩ := (ht.fields g hg).integerAt_of_dependsOn hk
  cases hat.eq_of_found hcount
  have hne : count.name ≠ f.name := by
    intro hname
    rw [ht.index_eq hcount hf hname] at hk
    exact hd hk
  cases hform : storedForm names t f values c with
  | error refusal => rw [setOrKept_of_error hf hform]
  | ok stored =>
    rw [get_setOrKept_of_ne ht hv hf hform hat.mem hne]
    exact Field.kept_of_none ((ht.fields count hat.mem).condition_eq_none hat.plain) _

end

/-! ## Two setters -/

/-- A conditional field has one selector. -/
theorem Field.kept_comm (hne : index ≠ index') (n n' : Option Int) (content : Content) :
    h.kept names t index' n' (h.kept names t index n content) =
      h.kept names t index n (h.kept names t index' n' content) := by
  cases hc : h.condition with
  | none => simp only [h.kept_of_none hc]
  | some condition =>
    by_cases hindex : condition.field = index
    · have hother : condition.field ≠ index' := fun heq => hne (hindex.symm.trans heq)
      rw [Field.kept_of_ne hc hother, Field.kept_of_ne hc hother]
    · rw [Field.kept_of_ne hc hindex, Field.kept_of_ne hc hindex]

theorem Field.kept_of_not_dependsOn (hd : ¬h.DependsOn index) (n : Option Int)
    (content : Content) : h.kept names t index n content = content := by
  cases hc : h.condition with
  | none => exact h.kept_of_none hc _
  | some condition =>
    exact Field.kept_of_ne hc (fun hindex => hd (.inr ⟨condition, hc, hindex⟩)) _

/-- Two fields that do not depend on one another can be set in either order. -/
theorem get_setOrKept_comm (ht : t.WellFormed) (hv : values.Conform names t)
    (hf : t.fields[index]? = some f) (hg : t.fields[index']? = some g) (hne : index ≠ index')
    (hfg : ¬f.DependsOn index') (hgf : ¬g.DependsOn index) (hh : h ∈ t.fields) :
    (setOrKept names t index' c' (setOrKept names t index c values)).get h.name =
      (setOrKept names t index c (setOrKept names t index' c' values)).get h.name := by
  have hfmem := List.mem_of_getElem? hf
  have hgmem := List.mem_of_getElem? hg
  have hnames : f.name ≠ g.name := fun heq => hne (ht.index_eq hf hg heq)
  have hvf := setOrKept_conform ht hv hf c
  have hvg := setOrKept_conform ht hv hg c'
  have hformg := storedForm_setOrKept ht hv hf hgmem hgf c c'
  have hformf := storedForm_setOrKept ht hv hg hfmem hfg c' c
  cases hsf : storedForm names t f values c with
  | error refusal =>
    rw [hsf] at hformf
    rw [setOrKept_of_error hf hsf, setOrKept_of_error hf hformf]
  | ok stored =>
    rw [hsf] at hformf
    cases hsg : storedForm names t g values c' with
    | error refusal =>
      rw [hsg] at hformg
      rw [setOrKept_of_error hg hsg, setOrKept_of_error hg hformg]
    | ok stored' =>
      rw [hsg] at hformg
      by_cases hhf : h.name = f.name
      · rw [hhf, get_setOrKept_of_ne ht hvf hg hformg hfmem hnames,
          get_setOrKept_self ht hv hf hsf, get_setOrKept_self ht hvg hf hformf]
        exact Field.kept_of_not_dependsOn hfg _ _
      by_cases hhg : h.name = g.name
      · rw [hhg, get_setOrKept_of_ne ht hvg hf hformf hgmem hnames.symm,
          get_setOrKept_self ht hv hg hsg, get_setOrKept_self ht hvf hg hformg]
        exact (Field.kept_of_not_dependsOn hgf _ _).symm
      · rw [get_setOrKept_of_ne ht hvf hg hformg hh hhg, get_setOrKept_of_ne ht hv hf hsf hh hhf,
          get_setOrKept_of_ne ht hvg hf hformf hh hhf, get_setOrKept_of_ne ht hv hg hsg hh hhg]
        exact Field.kept_comm hne _ _ _

end

end RecordTables
