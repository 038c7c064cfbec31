import RecordTables.Proofs.Record.Filling
import RecordTables.Record.Update

/-!
What a record holds after a field was set.

Setting a field changes that field and, if it is a selector, drops what its conditional fields may no
longer hold.  `Field.kept` says what is left of one field, and `get_clearStale` that clearing does
this to every field.  `setField_yields` shows that the record still holds what it may hold.
-/

namespace RecordTables

/-! ## What is stored -/

theorem Content.lengthFrom_single (given : Content) (v : Value) :
    given.LengthFrom (.single v) := by
  intro out h
  cases h

theorem Field.countMatches_single (t : Table) (values : FieldValues) (f : Field) (v : Value) :
    f.CountMatches t values (.single v) := by
  intro _ _ _ _ _ h
  cases h

/-- The form in which a field stores what it is set to is one that it may hold, and a counted
sequence is as long as its count says. -/
theorem storedForm_yields {names : RecordNames} {t : Table} {f : Field} (hf : f.WellFormed t)
    {values : FieldValues} (hv : values.Conform names t) (c : Content) :
    Yields (fun stored => f.Holds names t values stored ∧ c.LengthFrom stored ∧
        f.CountMatches t values stored)
      (storedForm names t f values c) := by
  unfold storedForm
  by_cases hc : c.isNil = true
  · rw [if_pos hc]
    split
    · rfl
    · rfl
    · rfl
    · next hinteger hnumber hboolean =>
      refine ⟨⟨fun _ => .unset ⟨hinteger, hnumber, hboolean⟩, fun _ => .unset⟩, ?_, ?_⟩
      · exact c.lengthFrom_single .nil
      · exact f.countMatches_single t values .nil
  · rw [if_neg hc]
    by_cases hl : f.luaType = .conditional
    · rw [if_pos hl]
      refine (checkConditional_yields hf hl hv c).map fun v hchosen => ?_
      have hholds : f.Holds names t values (.single v) :=
        ⟨fun hplain => absurd hl hplain, fun _ => hchosen⟩
      exact ⟨hholds, c.lengthFrom_single v, f.countMatches_single t values v⟩
    · rw [if_neg hl]
      have hcheck := checkField_yields names hf hl c
      have hholds : ∀ {stored}, f.HoldsPlain names stored → f.Holds names t values stored :=
        fun h => ⟨fun _ => h, fun hcond => absurd hcond hl⟩
      split
      · next refusal hx => exact hcheck.of_error hx
      · next items hx =>
        obtain ⟨hplain, hlength⟩ := hcheck.of_ok hx
        refine (checkCount_yields hf hv items).map fun _ hcount => ?_
        exact ⟨hholds hplain, hlength, hcount⟩
      · next content hnot hx =>
        obtain ⟨hplain, hlength⟩ := hcheck.of_ok hx
        refine ⟨hholds hplain, hlength, ?_⟩
        intro _ _ items _ _ heq
        exact (hnot items heq).elim

/-! ## What a selector leaves -/

/-- What the selector at an index leaves of the content of a field. -/
def Field.kept (names : RecordNames) (t : Table) (index : Nat) (selector : Option Int) (f : Field)
    (c : Content) : Content :=
  match f.condition with
  | none => c
  | some condition =>
    if condition.field ≠ index ∨ c.isNil ∨ keepsValue names t f condition selector c then c else .nil

theorem Field.kept_of_none {names : RecordNames} {t : Table} {index : Nat}
    {selector : Option Int} {f : Field} (hc : f.condition = none) (c : Content) :
    f.kept names t index selector c = c := by
  unfold Field.kept
  rw [hc]

theorem Field.kept_of_ne {names : RecordNames} {t : Table} {index : Nat} {selector : Option Int}
    {f : Field} {condition : Condition} (hc : f.condition = some condition)
    (hne : condition.field ≠ index) (c : Content) : f.kept names t index selector c = c := by
  unfold Field.kept
  rw [hc]
  exact if_pos (Or.inl hne)

/-- A field keeps its content only if the selector lets it, where it is the field's own selector and
the content is something. -/
theorem Field.kept_eq {names : RecordNames} {t : Table} {index : Nat} {selector : Option Int}
    {f : Field} {condition : Condition} (hc : f.condition = some condition)
    (hindex : condition.field = index) (c : Content) :
    f.kept names t index selector c = .nil ∨
      keepsValue names t f condition selector c = true ∧ f.kept names t index selector c = c := by
  unfold Field.kept
  rw [hc]
  by_cases hkeep : keepsValue names t f condition selector c = true
  · exact Or.inr ⟨hkeep, if_pos (Or.inr (Or.inr hkeep))⟩
  · left
    by_cases hnil : c.isNil = true
    · show (if _ then c else .nil) = Content.nil
      rw [if_pos (Or.inr (Or.inl hnil))]
      simpa [Content.isNil] using hnil
    · refine if_neg ?_
      intro h
      rcases h with h | h | h
      · exact h hindex
      · exact hnil h
      · exact hkeep h

/-- Clearing leaves of each field what the selector leaves of it, and touches no other name. -/
theorem get_clearStale (names : RecordNames) (t : Table) (index : Nat) (selector : Option Int)
    {fields : List Field} (hnames : (fields.map (·.name)).Nodup) (u : Update) :
    (∀ f ∈ fields, (clearStale names t index selector fields u).values.get f.name =
        f.kept names t index selector (u.values.get f.name)) ∧
      ∀ name, (∀ f ∈ fields, f.name ≠ name) →
        (clearStale names t index selector fields u).values.get name = u.values.get name := by
  induction fields generalizing u with
  | nil => exact ⟨fun _ h => absurd h List.not_mem_nil, fun _ _ => rfl⟩
  | cons f fields ih =>
    rw [List.map_cons, List.nodup_cons] at hnames
    have hfresh : ∀ g ∈ fields, g.name ≠ f.name := by
      intro g hg heq
      exact hnames.1 (List.mem_map.2 ⟨g, hg, heq⟩)
    -- one step puts what is left of the field, and the rest of the run leaves that field alone
    obtain ⟨u', hrun, hself, hothers⟩ : ∃ u' : Update,
        clearStale names t index selector (f :: fields) u =
          clearStale names t index selector fields u' ∧
        u'.values.get f.name = f.kept names t index selector (u.values.get f.name) ∧
        ∀ name, f.name ≠ name → u'.values.get name = u.values.get name := by
      cases hc : f.condition with
      | none =>
        refine ⟨u, ?_, (f.kept_of_none hc _).symm, fun _ _ => rfl⟩
        simp only [clearStale, hc]
      | some condition =>
        by_cases hkeep : condition.field ≠ index ∨ (u.values.get f.name).isNil = true ∨
            keepsValue names t f condition selector (u.values.get f.name) = true
        · refine ⟨u, ?_, ?_, fun _ _ => rfl⟩
          · simp only [clearStale, hc]
            rw [if_pos hkeep]
          · simp only [Field.kept, hc]
            rw [if_pos hkeep]
        · refine ⟨⟨u.values.set f.name .nil, u.cleared ++ [f.name]⟩, ?_, ?_, ?_⟩
          · simp only [clearStale, hc]
            rw [if_neg hkeep]
          · simp only [Field.kept, hc, FieldValues.get_set_self]
            rw [if_neg hkeep]
          · intro name hname
            exact FieldValues.get_set_of_ne u.values hname.symm .nil
    rw [hrun]
    obtain ⟨hrest, hkeep⟩ := ih hnames.2 u'
    constructor
    · refine List.forall_mem_cons.2 ⟨?_, fun g hg => ?_⟩
      · rw [hkeep f.name hfresh, hself]
      · rw [hrest g hg, hothers g.name (hfresh g hg).symm]
    · intro name hname
      rw [List.forall_mem_cons] at hname
      rw [hkeep name hname.2, hothers name hname.1]

/-! ## Setting a field -/

theorem keepsValue_eq_true {names : RecordNames} {t : Table} {f : Field} {condition : Condition}
    {n : Int} {c : Content} (h : keepsValue names t f condition (some n) c = true) :
    ∃ choice, condition.case? n = some choice ∧
      (checkSingle names (t.place f) choice.luaType choice.type c).isOk = true := by
  unfold keepsValue at h
  rw [Option.bind_some] at h
  split at h
  · cases h
  · next choice hcase => exact ⟨choice, hcase, h⟩

theorem eq_of_sameInteger {a b : Content} (h : sameInteger a b = true) : a = b := by
  unfold sameInteger at h
  rw [Bool.and_eq_true, decide_eq_true_eq] at h
  obtain ⟨hsome, heq⟩ := h
  have hinteger : ∀ {c : Content} {n : Int}, c.plainInteger? = some n →
      ∃ i : Int64, c = .single (.integer i) ∧ i.toInt = n := by
    intro c n hc
    unfold Content.plainInteger? at hc
    split at hc
    · next i =>
      cases hc
      exact ⟨i, rfl, rfl⟩
    · cases hc
  obtain ⟨n, hn⟩ := Option.isSome_iff_exists.1 hsome
  obtain ⟨i, rfl, hi⟩ := hinteger hn
  obtain ⟨j, rfl, hj⟩ := hinteger (heq ▸ hn)
  rw [Int64.toInt_inj.1 (hi.trans hj.symm)]

section

variable {names : RecordNames} {t : Table} {index : Nat} {f : Field} {values : FieldValues}
  {stored : Content}

/-- What its own selector leaves of a conditional field is what the field may hold beside the new
value of the selector. -/
theorem Field.HoldsChosen.kept {g k : Field} {condition : Condition} {c : Content}
    (h : g.HoldsChosen names t values c) (hc : g.condition = some condition)
    (hk : t.fields[condition.field]? = some k) {out : FieldValues} {n : Int64}
    (hn : out.get k.name = .single (.integer n)) :
    g.HoldsChosen names t out (g.kept names t condition.field (some n.toInt) c) := by
  rcases g.kept_eq hc rfl c with hnil | ⟨hkeep, hsame⟩
  · rw [hnil]
    exact .unset
  · rw [hsame]
    obtain ⟨choice, hcase, hok⟩ := keepsValue_eq_true hkeep
    cases h with
    | unset => exact .unset
    | chosen => exact .chosen hc hk hn hcase hok

/-- Contents in which a field was set and what its conditional fields may not hold was dropped. -/
theorem FieldValues.Conform.of_kept (ht : t.WellFormed) (hv : values.Conform names t)
    (hf : t.fields[index]? = some f) (hstored : f.Holds names t values stored)
    {out : FieldValues} (hout : ∀ g ∈ t.fields, out.get g.name =
      g.kept names t index stored.plainInteger? ((values.set f.name stored).get g.name)) :
    out.Conform names t := by
  have hmem := List.mem_of_getElem? hf
  have hplain : ∀ g ∈ t.fields, g.luaType ≠ .conditional →
      out.get g.name = (values.set f.name stored).get g.name := by
    intro g hg hl
    rw [hout g hg, Field.kept_of_none ((ht.fields g hg).condition_eq_none hl)]
  intro g hg
  have hholds : g.Holds names t values ((values.set f.name stored).get g.name) := by
    by_cases hname : g.name = f.name
    · rw [ht.eq_of_name hg hmem hname, FieldValues.get_set_self]
      exact hstored
    · rw [FieldValues.get_set_of_ne values hname]
      exact hv g hg
  cases hc : g.condition with
  | none =>
    have hl := (ht.fields g hg).luaType_ne hc
    rw [hplain g hg hl]
    exact ⟨hholds.plain, fun hcond => absurd hcond hl⟩
  | some condition =>
    have hl := (ht.fields g hg).luaType_eq hc
    refine ⟨fun hne => absurd hl hne, fun _ => ?_⟩
    obtain ⟨⟨k, hk⟩, _⟩ := (ht.fields g hg).condition hc
    rw [hout g hg]
    by_cases hindex : condition.field = index
    · -- the field that was set is the selector of this one
      subst hindex
      have hkf := hk.eq_of_found hf
      subst hkf
      obtain ⟨n, rfl⟩ := (hstored.plain hk.plain).integer hk.luaType hk.arity
      have hn : out.get f.name = .single (.integer n) := by
        rw [hplain f hmem hk.plain, FieldValues.get_set_self]
      exact (hholds.chosen hl).kept hc hk.found hn
    · rw [Field.kept_of_ne hc hindex]
      have hne : k.name ≠ f.name := by
        intro hname
        exact hindex (ht.index_eq hk.found hf hname)
      refine (hholds.congr fun condition' k' hc' hk' => ?_).chosen hl
      rw [hc] at hc'
      cases hc'
      rw [hk.eq_of_found hk', hplain k hk.mem hk.plain]
      exact FieldValues.get_set_of_ne values hne stored

theorem FieldValues.get_set_same (h : values.get f.name = stored) (name : String) :
    FieldValues.get (values.set f.name stored) name = values.get name := by
  by_cases hname : name = f.name
  · rw [hname, FieldValues.get_set_self, h]
  · exact FieldValues.get_set_of_ne values hname stored

theorem FieldValues.Conform.of_get_eq {out : FieldValues} (hv : values.Conform names t)
    (h : ∀ name, out.get name = values.get name) : out.Conform names t := by
  intro f hf
  rw [h f.name]
  exact (hv f hf).congr fun _ g _ _ => h g.name

/-- How a field was set: the form that was stored, and the fields that it was stored beside.  Only
conditional fields may change with another one. -/
structure FieldSet (names : RecordNames) (t : Table) (f : Field) (values : FieldValues)
    (c stored : Content) (out : FieldValues) : Prop where
  form : storedForm names t f values c = .ok stored
  self : f.luaType ≠ .conditional → out.get f.name = stored
  others : ∀ g ∈ t.fields, g.luaType ≠ .conditional → g.name ≠ f.name →
    out.get g.name = values.get g.name

theorem FieldSet.of_get_eq (hf : f ∈ t.fields) {c : Content} {out : FieldValues}
    (hform : storedForm names t f values c = .ok stored)
    (hout : ∀ g ∈ t.fields, g.luaType ≠ .conditional →
      out.get g.name = (values.set f.name stored).get g.name) :
    FieldSet names t f values c stored out := by
  refine ⟨hform, fun hl => ?_, fun g hg hl hname => ?_⟩
  · rw [hout f hf hl]
    exact FieldValues.get_set_self values f.name stored
  · rw [hout g hg hl]
    exact FieldValues.get_set_of_ne values hname stored

/-- After a field was set every field holds what it may hold. -/
theorem setField_yields (ht : t.WellFormed) (hv : values.Conform names t)
    (hf : t.fields[index]? = some f) (c : Content) :
    Yields (fun u => u.values.Conform names t ∧
        ∃ stored, FieldSet names t f values c stored u.values)
      (setField names t index values c) := by
  have hmem := List.mem_of_getElem? hf
  have hform := storedForm_yields (ht.fields f hmem) hv c
  have hat : t.fieldAt index = .ok f := by
    unfold Table.fieldAt
    rw [hf]
  unfold setField
  rw [hat]
  simp only
  cases hx : storedForm names t f values c with
  | error refusal => exact hform.of_error hx
  | ok stored =>
    simp only
    by_cases hsame : sameInteger (values.get f.name) stored = true
    · rw [if_pos hsame]
      refine ⟨hv.of_get_eq ?_, stored, .of_get_eq hmem hx fun _ _ _ => rfl⟩
      exact FieldValues.get_set_same (eq_of_sameInteger hsame)
    · rw [if_neg hsame]
      have hclear := (get_clearStale names t index stored.plainInteger? ht.names
        ⟨values.set f.name stored, []⟩).1
      refine ⟨hv.of_kept ht hf (hform.of_ok hx).1 hclear, stored, ?_⟩
      refine .of_get_eq hmem hx fun g hg hl => ?_
      rw [hclear g hg, Field.kept_of_none ((ht.fields g hg).condition_eq_none hl)]

end

end RecordTables
