import RecordTables.Proofs.Record.Settling
import RecordTables.Proofs.Record.Suiting

/-!
What a field accepts.

`Field.Accepts` says which contents a field can be set to beside the other fields of its record: how
long a sequence must be, and which values suit the type of the field or the case that its selector
chooses.  `storedForm_isOk_iff` shows that a setter takes just these.
-/

namespace RecordTables

/-- A sequence is as long as the count beside it says. -/
def Field.CountAllows (t : Table) (values : FieldValues) (f : Field) (length : Nat) : Prop :=
  ∀ index, f.arity = .counted index → ∃ g n, t.fields[index]? = some g ∧
    values.get g.name = .single (.integer n) ∧ n.toInt = length

/-- A content that a field can be set to beside the other fields of its record. -/
inductive Field.Accepts (names : RecordNames) (t : Table) (values : FieldValues) (f : Field) :
    Content → Prop
  | unset (h : f.MayBeUnset) : f.Accepts names t values .nil
  | single {type : ValueType} {v : Value} (ha : f.arity = .one) (ht : f.type = some type)
      (hv : v.Suits names f.luaType type) : f.Accepts names t values (.single v)
  | sequence {type : ValueType} {items : List Value} (ha : f.arity ≠ .one)
      (ht : f.type = some type) (hfixed : ∀ n, f.arity = .fixed n → items.length = n)
      (hcount : f.CountAllows t values items.length)
      (hitems : ∀ v ∈ items, v.SuitsItem names type) : f.Accepts names t values (.sequence items)
  | chosen {condition : Condition} {g : Field} {n : Int64} {choice : Case} {v : Value}
      (hc : f.condition = some condition) (hg : t.fields[condition.field]? = some g)
      (hn : values.get g.name = .single (.integer n))
      (hcase : condition.case? n.toInt = some choice)
      (hv : v.Suits names choice.luaType choice.type) : f.Accepts names t values (.single v)

/-! ## Fields -/

section

variable {names : RecordNames} {t : Table} {f : Field} {values : FieldValues}

theorem checkCount_integer_iff {index : Nat} (ha : f.arity = .counted index) {g : Field}
    (hg : t.IntegerAt index g) {n : Int64} (hn : values.get g.name = .single (.integer n))
    (length : Nat) : checkCount t f values length = .ok () ↔ n.toInt = length := by
  unfold checkCount
  simp only [ha, hg.fieldAt, ok_bind, FieldValues.integer?_eq hn, Option.getD_some]
  show (if n.toInt = length then .ok () else .error _) = Except.ok () ↔ _
  by_cases hlength : n.toInt = length
  · rw [if_pos hlength]
    exact ⟨fun _ => hlength, fun _ => rfl⟩
  · rw [if_neg hlength]
    exact ⟨nofun, fun h => absurd h hlength⟩

theorem checkCount_eq_ok_iff (hf : f.WellFormed t) (hv : values.Conform names t) (length : Nat) :
    checkCount t f values length = .ok () ↔ f.CountAllows t values length := by
  unfold Field.CountAllows
  cases ha : f.arity with
  | counted index =>
    obtain ⟨g, hg⟩ := hf.counter ha
    obtain ⟨n, hn⟩ := hv.integerAt hg
    rw [checkCount_integer_iff ha hg hn]
    constructor
    · intro h index' ha'
      cases ha'
      exact ⟨g, n, hg.found, hn, h⟩
    · intro h
      obtain ⟨g', n', hg', hn', hlength⟩ := h index rfl
      rw [hg.eq_of_found hg', hn] at hn'
      cases hn'
      exact hlength
  | _ =>
    unfold checkCount
    rw [ha]
    exact ⟨fun _ => nofun, fun _ => rfl⟩

/-- A conditional field is checked for the case that the record's selector chooses. -/
theorem checkConditional_eq {condition : Condition} (hc : f.condition = some condition) {g : Field}
    (hg : t.fields[condition.field]? = some g) {n : Int64}
    (hn : values.get g.name = .single (.integer n)) (c : Content) :
    checkConditional names t f values c =
      match condition.case? n.toInt with
      | none => .error (.noCase (t.place f) g.name n.toInt)
      | some choice => checkSingle names (t.place f) choice.luaType choice.type c := by
  unfold checkConditional Table.fieldAt
  simp only [hc, hg, ok_bind, FieldValues.integer?_eq hn]
  cases condition.case? n.toInt <;> rfl

theorem checkConditional_isOk_iff (hf : f.WellFormed t) (hl : f.luaType = .conditional)
    (hv : values.Conform names t) {c : Content} (hnil : c ≠ .nil) :
    (∃ w, checkConditional names t f values c = .ok w) ↔ f.Accepts names t values c := by
  obtain ⟨condition, hc⟩ : ∃ condition, f.condition = some condition := by
    cases hcond : f.condition with
    | none => exact absurd hl (hf.luaType_ne hcond)
    | some condition => exact ⟨condition, rfl⟩
  obtain ⟨⟨g, hg⟩, hcases⟩ := hf.condition hc
  obtain ⟨n, hn⟩ := hv.integerAt hg
  rw [checkConditional_eq hc hg.found hn]
  constructor
  · intro h
    obtain ⟨w, h⟩ := h
    split at h
    · cases h
    · next choice hcase =>
      have hr := hcases choice (List.mem_of_find?_eq_some hcase)
      cases c with
      | sequence items => exact absurd h (checkSingle_sequence hr)
      | single v =>
        have hne : v ≠ .nil := fun heq => hnil (congrArg Content.single heq)
        exact .chosen hc hg.found hn hcase ((checkSingle_isOk_iff hr hne).1 ⟨w, h⟩)
  · intro h
    cases h with
    | unset => exact absurd rfl hnil
    | @single type v _ _ hsuits =>
      rw [hl] at hsuits
      cases hsuits
    | sequence ha =>
      cases hf with
      | single hone => exact absurd hone ha
      | sequence _ _ _ htable =>
        rw [hl] at htable
        cases htable
      | conditional hone => exact absurd hone ha
    | @chosen condition' g' n' choice v hc' hg' hn' hcase hsuits =>
      rw [hc] at hc'
      cases hc'
      rw [hg.eq_of_found hg', hn] at hn'
      cases hn'
      have hr := hcases choice (List.mem_of_find?_eq_some hcase)
      simp only [hcase]
      exact (checkSingle_isOk_iff hr hsuits.ne_nil).2 hsuits

theorem checkField_of_one (ha : f.arity = .one) {type : ValueType} (ht : f.type = some type)
    (c : Content) :
    checkField names t f c = (checkSingle names (t.place f) f.luaType type c).map .single := by
  have hone : ¬f.arity.isSequence = true := by simp [ha, Arity.isSequence]
  unfold checkField
  rw [ht]
  exact if_neg hone

theorem checkField_of_sequence (ha : f.arity ≠ .one) {type : ValueType}
    (ht : f.type = some type) (c : Content) :
    checkField names t f c = (checkSequence names (t.place f) f.arity type c).map .sequence := by
  have hseq : f.arity.isSequence = true := by simpa [Arity.isSequence] using ha
  unfold checkField
  rw [ht]
  exact if_pos hseq

/-- A field with a single value of one type accepts what suits this type. -/
theorem storedForm_single_isOk_iff (ha : f.arity = .one) (hc : f.condition = none)
    {type : ValueType} (ht : f.type = some type) (hr : Represents f.luaType type)
    (hl : f.luaType ≠ .conditional) {c : Content} (hnil : c ≠ .nil) :
    (∃ stored, storedForm names t f values c = .ok stored) ↔ f.Accepts names t values c := by
  simp only [storedForm_eq_ok_iff hl hnil, checkField_of_one ha ht, map_eq_ok_iff]
  constructor
  · intro h
    obtain ⟨stored, ⟨w, hw, _⟩, _⟩ := h
    cases c with
    | sequence items => exact absurd hw (checkSingle_sequence hr)
    | single v =>
      have hne : v ≠ .nil := fun heq => hnil (congrArg Content.single heq)
      exact .single ha ht ((checkSingle_isOk_iff hr hne).1 ⟨w, hw⟩)
  · intro h
    cases h with
    | unset => exact absurd rfl hnil
    | sequence hseq => exact absurd ha hseq
    | chosen hsome =>
      rw [hc] at hsome
      cases hsome
    | single _ ht' hsuits =>
      rw [ht] at ht'
      cases ht'
      obtain ⟨w, hw⟩ := (checkSingle_isOk_iff hr hsuits.ne_nil).2 hsuits
      refine ⟨.single w, ⟨w, hw, rfl⟩, fun items h => ?_⟩
      cases h

/-- A field with a sequence accepts sequences of the right length whose items suit the type. -/
theorem storedForm_sequence_isOk_iff (hf : f.WellFormed t) (hv : values.Conform names t)
    (ha : f.arity ≠ .one) (hc : f.condition = none) {type : ValueType} (ht : f.type = some type)
    (hknown : ∀ name, type ≠ .foreign name) (hl : f.luaType ≠ .conditional) {c : Content}
    (hnil : c ≠ .nil) :
    (∃ stored, storedForm names t f values c = .ok stored) ↔ f.Accepts names t values c := by
  simp only [storedForm_eq_ok_iff hl hnil, checkField_of_sequence ha ht, map_eq_ok_iff]
  constructor
  · intro h
    obtain ⟨stored, ⟨out, hout, rfl⟩, hcount⟩ := h
    obtain ⟨_, _, items, rfl, hlength⟩ :=
      (checkSequence_yields names (t.place f) hknown f.arity c).of_ok hout
    obtain ⟨hfixed, hitems⟩ := (checkSequence_isOk_iff hknown).1 ⟨out, hout⟩
    have hallows := (checkCount_eq_ok_iff hf hv out.length).1 (hcount out rfl)
    rw [hlength] at hallows
    exact .sequence ha ht hfixed hallows hitems
  · intro h
    cases h with
    | unset => exact absurd rfl hnil
    | single hone => exact absurd hone ha
    | chosen hsome =>
      rw [hc] at hsome
      cases hsome
    | @sequence type' items _ ht' hfixed hallows hitems =>
      rw [ht] at ht'
      cases ht'
      obtain ⟨out, hout⟩ := (checkSequence_isOk_iff hknown).2 ⟨hfixed, hitems⟩
      obtain ⟨_, _, items', heq, hlength⟩ :=
        (checkSequence_yields names (t.place f) hknown f.arity (.sequence items)).of_ok hout
      cases heq
      refine ⟨.sequence out, ⟨out, hout, rfl⟩, fun out' hout' => ?_⟩
      cases hout'
      rw [hlength]
      exact (checkCount_eq_ok_iff hf hv items.length).2 hallows

theorem accepts_nil_iff : f.Accepts names t values .nil ↔ f.MayBeUnset := by
  refine ⟨fun h => ?_, .unset⟩
  generalize hc : Content.nil = c at h
  cases h with
  | unset h => exact h
  | single _ _ hsuits =>
    cases hc
    exact absurd rfl hsuits.ne_nil
  | sequence => cases hc
  | chosen _ _ _ _ hsuits =>
    cases hc
    exact absurd rfl hsuits.ne_nil

theorem storedForm_nil_isOk_iff :
    (∃ stored, storedForm names t f values .nil = .ok stored) ↔ f.MayBeUnset := by
  have hnil : Content.nil.isNil = true := Content.isNil_iff.2 rfl
  unfold storedForm Field.MayBeUnset
  rw [if_pos hnil]
  cases f.luaType <;> simp

/-- A setter takes just the contents that its field accepts. -/
theorem storedForm_isOk_iff (hf : f.WellFormed t) (hv : values.Conform names t) (c : Content) :
    (∃ stored, storedForm names t f values c = .ok stored) ↔ f.Accepts names t values c := by
  by_cases hnil : c = .nil
  · rw [hnil, accepts_nil_iff]
    exact storedForm_nil_isOk_iff
  by_cases hl : f.luaType = .conditional
  · rw [← checkConditional_isOk_iff hf hl hv hnil, storedForm_of_conditional hl hnil]
    simp only [map_eq_ok_iff]
    exact ⟨fun ⟨_, w, hw, _⟩ => ⟨w, hw⟩, fun ⟨w, hw⟩ => ⟨_, w, hw, rfl⟩⟩
  have hwf := hf
  cases hf with
  | single ha hc ht hr => exact storedForm_single_isOk_iff ha hc ht hr hl hnil
  | sequence ha hc ht _ hknown =>
    exact storedForm_sequence_isOk_iff hwf hv ha hc ht hknown hl hnil
  | conditional _ _ hcond => exact absurd hcond hl

theorem setField_isOk_iff {index : Nat} (hindex : t.fields[index]? = some f) (c : Content) :
    (∃ u, setField names t index values c = .ok u) ↔
      ∃ stored, storedForm names t f values c = .ok stored := by
  unfold setField Table.fieldAt
  simp only [hindex]
  cases storedForm names t f values c with
  | error refusal =>
    constructor
    · intro h
      obtain ⟨_, h⟩ := h
      cases h
    · intro h
      obtain ⟨_, h⟩ := h
      cases h
  | ok stored =>
    refine ⟨fun _ => ⟨stored, rfl⟩, fun _ => ?_⟩
    simp only
    split
    · exact ⟨_, rfl⟩
    · exact ⟨_, rfl⟩

/-- A sequence that a fixed length does not refuse, but an item, is refused at the first such item,
whatever its count says. -/
theorem storedForm_eq_error (hf : f.WellFormed t) (ha : f.arity ≠ .one) {type : ValueType}
    (ht : f.type = some type) {before after : List Value} {w : Value}
    (hfixed : ∀ n, f.arity = .fixed n → (before ++ w :: after).length = n)
    (hbefore : ∀ v ∈ before, v.SuitsItem names type) (hw : ¬w.SuitsItem names type) :
    ∃ refusal, storedForm names t f values (.sequence (before ++ w :: after)) = .error refusal ∧
      refusal.OfValue ((t.place f).at (before.length + 1)) := by
  cases hf with
  | single hone => exact absurd hone ha
  | conditional hone => exact absurd hone ha
  | sequence _ _ ht' hl hknown =>
    rw [ht] at ht'
    cases ht'
    have hplain : f.luaType ≠ .conditional := by
      rw [hl]
      decide
    obtain ⟨refusal, hrefusal, hplace⟩ :=
      checkItems_eq_error (t.place f) hknown 1 hbefore hw
    rw [Nat.add_comm] at hplace
    have hcheck : checkSequence names (t.place f) f.arity type (.sequence (before ++ w :: after)) =
        .error refusal := by
      unfold checkSequence
      cases hfound : f.arity with
      | fixed n => exact (if_pos (hfixed n hfound)).trans hrefusal
      | _ => exact hrefusal
    refine ⟨refusal, ?_, hplace⟩
    unfold storedForm
    rw [if_neg (mt Content.isNil_iff.1 Content.noConfusion), if_neg hplain,
      checkField_of_sequence ha ht, hcheck]
    rfl

end

end RecordTables
