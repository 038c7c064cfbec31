import RecordTables.Proofs.Record.Yield
import RecordTables.Proofs.Schema.WellFormed
import RecordTables.Record.Check

/-!
What the fields of a record may hold.

`FieldValues.Conform` is the type discipline of records: every field holds what its declaration asks
for, and a conditional field holds what the case of its selector takes.  The checks yield only
contents in this form, as long as the table is well-formed, and a content in this form passes them
again.
-/

namespace RecordTables

/-! ## Single values and items -/

/-- A value in the form in which a field stores it. -/
inductive Stored (names : RecordNames) : LuaType → ValueType → Value → Prop
  | integer {s : ScalarType} {low high : Int} {i : Int64} (hb : s.bounds? = some (low, high))
      (hl : low ≤ i.toInt) (hh : i.toInt ≤ high) : Stored names .integer (.scalar s) (.integer i)
  | number (type : ValueType) (x : Binary64) : Stored names .number type (.float x)
  | string (type : ValueType) (bytes : List UInt8) : Stored names .string type (.string bytes)
  | boolean (type : ValueType) (b : Bool) : Stored names .boolean type (.boolean b)
  | light (type : ValueType) (address : Nat) : Stored names .lightUserData type (.light address)
  | noLight (type : ValueType) : Stored names .lightUserData type .nil
  | record {name : String} {r : RecordRef} (h : names r = some name) :
      Stored names .table (.table name) (.record r)

/-- A value in the form in which a sequence holds it.  It is never nil. -/
inductive StoredItem (names : RecordNames) : ValueType → Value → Prop
  | integer {s : ScalarType} {low high : Int} {i : Int64} (hb : s.bounds? = some (low, high))
      (hl : low ≤ i.toInt) (hh : i.toInt ≤ high) : StoredItem names (.scalar s) (.integer i)
  | float {s : ScalarType} (hs : s = .float ∨ s = .double) (x : Binary64) :
      StoredItem names (.scalar s) (.float x)
  | string (bytes : List UInt8) : StoredItem names (.scalar .string) (.string bytes)
  | record {name : String} {r : RecordRef} (h : names r = some name) :
      StoredItem names (.table name) (.record r)

section

variable (names : RecordNames) (place : Place)

theorem checkRecord_yields (name : String) (c : Content) :
    Yields (Stored names .table (.table name)) (checkRecord names place name c) := by
  unfold checkRecord Place.refuse
  split
  · split
    · next found hr =>
      by_cases hfound : found = name
      · rw [if_pos hfound]
        exact .record (hfound ▸ hr)
      · rw [if_neg hfound]
        rfl
    · rfl
  · rfl

theorem checkInteger_yields {s : ScalarType} {low high : Int} (hb : s.bounds? = some (low, high))
    (c : Content) :
    Yields (Stored names .integer (.scalar s)) (checkInteger place (.scalar s) c) := by
  unfold checkInteger Place.refuse
  cases c.integer? (decide (ValueType.scalar s = .scalar .bool)) with
  | none => rfl
  | some i =>
    have hbounds : (ValueType.scalar s).bounds? = some (low, high) := hb
    simp only [hbounds]
    by_cases hrange : i.toInt < low ∨ high < i.toInt
    · rw [if_pos hrange]
      rfl
    · rw [if_neg hrange]
      exact .integer hb (by omega) (by omega)

/-- What a check gives for a single value of a type that the representation can hold. -/
theorem checkSingle_yields {luaType : LuaType} {type : ValueType} (h : Represents luaType type)
    (c : Content) : Yields (Stored names luaType type) (checkSingle names place luaType type c) := by
  cases h with
  | integer hb => exact checkInteger_yields names place hb c
  | number =>
    simp only [checkSingle]
    split
    · exact .number _ _
    · exact .number _ _
    · rfl
  | string =>
    simp only [checkSingle]
    split
    · exact .string _ _
    · rfl
  | boolean =>
    simp only [checkSingle]
    split
    · exact .boolean _ _
    · rfl
  | lightUserData =>
    simp only [checkSingle]
    split
    · exact .light _ _
    · exact .noLight _
    · rfl
  | table name => exact checkRecord_yields names place name c

/-- A stored value passes its check as it is. -/
theorem checkSingle_stored {luaType : LuaType} {type : ValueType} {v : Value}
    (h : Stored names luaType type v) :
    checkSingle names place luaType type (.single v) = .ok v := by
  cases h with
  | @integer s low high i hb hl hh =>
    have hbounds : (ValueType.scalar s).bounds? = some (low, high) := hb
    have hrange : ¬(i.toInt < low ∨ high < i.toInt) := by omega
    simp only [checkSingle, checkInteger, Content.integer?, hbounds, if_neg hrange]
  | number => rfl
  | string => rfl
  | boolean => rfl
  | light => rfl
  | noLight => rfl
  | record hr => simp only [checkSingle, checkRecord, hr, if_true]

theorem represents_itemType (s : ScalarType) : Represents s.itemType (.scalar s) := by
  cases s with
  | float => exact .number (by decide)
  | double => exact .number (by decide)
  | string => exact .string
  | _ => exact .integer rfl

theorem Stored.item {names : RecordNames} {s : ScalarType} {v : Value}
    (h : Stored names s.itemType (.scalar s) v) : StoredItem names (.scalar s) v := by
  generalize hl : s.itemType = luaType at h
  cases h with
  | integer hb hlow hhigh => exact .integer hb hlow hhigh
  | number =>
    refine .float ?_ _
    cases s <;> simp [ScalarType.itemType] at hl ⊢
  | string =>
    have hs : s = .string := by cases s <;> simp [ScalarType.itemType] at hl ⊢
    subst hs
    exact .string _
  | boolean => cases s <;> cases hl
  | light => cases s <;> cases hl
  | noLight => cases s <;> cases hl

theorem checkItem_yields {type : ValueType} (hknown : ∀ name, type ≠ .foreign name) (v : Value) :
    Yields (StoredItem names type) (checkItem names place type v) := by
  cases type with
  | scalar s =>
    exact (checkSingle_yields names place (represents_itemType s) (.single v)).mono fun _ h => h.item
  | table name =>
    refine (checkRecord_yields names place name (.single v)).mono fun v h => ?_
    cases h with
    | record hr => exact .record hr
  | foreign name => exact absurd rfl (hknown name)

theorem checkItems_yields {type : ValueType} (hknown : ∀ name, type ≠ .foreign name) (index : Nat)
    (items : List Value) :
    Yields (fun out => out.length = items.length ∧ ∀ v ∈ out, StoredItem names type v)
      (checkItems names place type index items) := by
  induction items generalizing index with
  | nil => exact ⟨rfl, fun _ h => absurd h List.not_mem_nil⟩
  | cons v items ih =>
    refine (checkItem_yields names (place.at index) hknown v).bind fun v' hv => ?_
    refine (ih (index + 1)).bind fun out hout => ?_
    constructor
    · rw [List.length_cons, List.length_cons, hout.1]
    · exact List.forall_mem_cons.2 ⟨hv, hout.2⟩

/-- The items of a sequence pass their checks, and there are as many as were given. -/
theorem checkSequence_yields {type : ValueType} (hknown : ∀ name, type ≠ .foreign name)
    (arity : Arity) (c : Content) :
    Yields (fun out => (∀ n, arity = .fixed n → out.length = n) ∧
        (∀ v ∈ out, StoredItem names type v) ∧
        ∃ items, c = .sequence items ∧ out.length = items.length)
      (checkSequence names place arity type c) := by
  cases c with
  | single v => rfl
  | sequence items =>
    have hitems := checkItems_yields names place hknown 1 items
    cases arity with
    | fixed n =>
      show Yields _ (if items.length = n then checkItems names place type 1 items
        else .error (.wrongLength place n items.length))
      by_cases hn : items.length = n
      · rw [if_pos hn]
        refine hitems.mono fun out hout => ⟨fun m hm => ?_, hout.2, items, rfl, hout.1⟩
        cases hm
        exact hout.1.trans hn
      · rw [if_neg hn]
        rfl
    | one => exact hitems.mono fun out hout => ⟨nofun, hout.2, items, rfl, hout.1⟩
    | counted index => exact hitems.mono fun out hout => ⟨nofun, hout.2, items, rfl, hout.1⟩
    | unbounded => exact hitems.mono fun out hout => ⟨nofun, hout.2, items, rfl, hout.1⟩

end

/-! ## Fields -/

/-- Whether a field may hold nothing. -/
def Field.MayBeUnset (f : Field) : Prop :=
  f.luaType ≠ .integer ∧ f.luaType ≠ .number ∧ f.luaType ≠ .boolean

/-- What a field that is not conditional may hold. -/
inductive Field.HoldsPlain (names : RecordNames) (f : Field) : Content → Prop
  | unset (h : f.MayBeUnset) : f.HoldsPlain names .nil
  | single {type : ValueType} {v : Value} (ha : f.arity = .one) (ht : f.type = some type)
      (hv : Stored names f.luaType type v) : f.HoldsPlain names (.single v)
  | sequence {type : ValueType} {items : List Value} (ha : f.arity ≠ .one)
      (ht : f.type = some type) (hn : ∀ n, f.arity = .fixed n → items.length = n)
      (hitems : ∀ v ∈ items, StoredItem names type v) : f.HoldsPlain names (.sequence items)

/-- What a conditional field may hold beside the other fields of its record: nothing, or a value that
the check accepts for the case which the selector chooses. -/
inductive Field.HoldsChosen (names : RecordNames) (t : Table) (values : FieldValues) (f : Field) :
    Content → Prop
  | unset : f.HoldsChosen names t values .nil
  | chosen {condition : Condition} {g : Field} {n : Int64} {choice : Case} {v : Value}
      (hc : f.condition = some condition) (hg : t.fields[condition.field]? = some g)
      (hn : values.get g.name = .single (.integer n))
      (hcase : condition.case? n.toInt = some choice)
      (hv : (checkSingle names (t.place f) choice.luaType choice.type (.single v)).isOk = true) :
      f.HoldsChosen names t values (.single v)

/-- What a field of a record may hold. -/
structure Field.Holds (names : RecordNames) (t : Table) (values : FieldValues) (f : Field)
    (c : Content) : Prop where
  plain : f.luaType ≠ .conditional → f.HoldsPlain names c
  chosen : f.luaType = .conditional → f.HoldsChosen names t values c

/-- Every field of a table holds what it may hold. -/
def FieldValues.Conform (names : RecordNames) (t : Table) (values : FieldValues) : Prop :=
  ∀ f ∈ t.fields, f.Holds names t values (values.get f.name)

theorem Field.HoldsPlain.integer {names : RecordNames} {f : Field} {c : Content}
    (h : f.HoldsPlain names c) (hl : f.luaType = .integer) (ha : f.arity = .one) :
    ∃ n, c = .single (.integer n) := by
  cases h with
  | unset h => exact absurd hl h.1
  | single _ _ hv =>
    rw [hl] at hv
    cases hv with
    | @integer _ _ _ i => exact ⟨i, rfl⟩
  | sequence hne => exact absurd ha hne

theorem Field.HoldsPlain.boolean {names : RecordNames} {f : Field} {c : Content}
    (h : f.HoldsPlain names c) (hl : f.luaType = .boolean) (ha : f.arity = .one) :
    ∃ b, c = .single (.boolean b) := by
  cases h with
  | unset h => exact absurd hl h.2.2
  | single _ _ hv =>
    rw [hl] at hv
    cases hv with
    | boolean _ b => exact ⟨b, rfl⟩
  | sequence hne => exact absurd ha hne

theorem FieldValues.Conform.integerAt {names : RecordNames} {t : Table} {values : FieldValues}
    (h : values.Conform names t) {index : Nat} {g : Field} (hg : t.IntegerAt index g) :
    ∃ n, values.get g.name = .single (.integer n) := by
  exact ((h g hg.mem).plain hg.plain).integer hg.luaType hg.arity

theorem Field.default_eq_nil {f : Field} (h : f.MayBeUnset) : f.default = .nil := by
  obtain ⟨hinteger, hnumber, hboolean⟩ := h
  unfold Field.default
  split
  · next hl => exact absurd hl hinteger
  · next hl => exact absurd hl hnumber
  · next hl => exact absurd hl hboolean
  · rfl

/-- The zero of a field that always holds something is a value of its type: every range of integers
has zero in it. -/
theorem Field.default_stored (names : RecordNames) {f : Field} {type : ValueType}
    (hr : Represents f.luaType type) (ha : f.arity = .one) (h : ¬f.MayBeUnset) :
    ∃ v, f.default = .single v ∧ Stored names f.luaType type v := by
  unfold Field.default
  unfold Field.MayBeUnset at h
  rw [ha]
  generalize f.luaType = luaType at hr h ⊢
  cases hr with
  | @integer s low high hb =>
    have hzero : low ≤ 0 ∧ 0 ≤ high := by
      cases s <;> cases hb <;> decide
    exact ⟨_, rfl, .integer hb hzero.1 hzero.2⟩
  | number => exact ⟨_, rfl, .number _ _⟩
  | boolean => exact ⟨_, rfl, .boolean _ _⟩
  | string => exact absurd (by decide) h
  | lightUserData => exact absurd (by decide) h
  | table => exact absurd (by decide) h

/-- A default is among the contents that a field may hold, whatever its type is. -/
theorem Field.WellFormed.holdsPlain_default {names : RecordNames} {t : Table} {f : Field}
    (hf : f.WellFormed t) (hl : f.luaType ≠ .conditional) : f.HoldsPlain names f.default := by
  by_cases hunset : f.MayBeUnset
  · rw [Field.default_eq_nil hunset]
    exact .unset hunset
  · cases hf with
    | single ha _ ht hr =>
      obtain ⟨v, hv, hstored⟩ := Field.default_stored names hr ha hunset
      rw [hv]
      exact .single ha ht hstored
    | sequence _ _ _ htable => exact absurd (by simp [Field.MayBeUnset, htable]) hunset
    | conditional _ _ hcond => exact absurd hcond hl

/-- A content is no sequence, or is as long as the one that was given. -/
def Content.LengthFrom (given c : Content) : Prop :=
  ∀ out, c = .sequence out → ∃ items, given = .sequence items ∧ out.length = items.length

/-- What a check gives for a field that is not conditional: a content that the field may hold, and as
many items as were given. -/
theorem checkField_yields (names : RecordNames) {t : Table} {f : Field} (hf : f.WellFormed t)
    (hl : f.luaType ≠ .conditional) (c : Content) :
    Yields (fun stored => f.HoldsPlain names stored ∧ c.LengthFrom stored)
      (checkField names t f c) := by
  unfold checkField
  cases hf with
  | single ha _ ht hr =>
    have hone : ¬f.arity.isSequence = true := by simp [ha, Arity.isSequence]
    simp only [ht]
    rw [if_neg hone]
    exact (checkSingle_yields names _ hr c).map fun v hv =>
      ⟨.single ha ht hv, fun _ heq => by cases heq⟩
  | sequence ha _ ht _ hknown =>
    have hseq : f.arity.isSequence = true := by simpa [Arity.isSequence] using ha
    simp only [ht]
    rw [if_pos hseq]
    refine (checkSequence_yields names _ hknown f.arity c).map fun out hout => ?_
    refine ⟨.sequence ha ht hout.1 hout.2.1, fun out' heq => ?_⟩
    cases heq
    exact hout.2.2
  | conditional _ _ hcond => exact absurd hcond hl

theorem checkInteger_eq_ok {place : Place} {type : ValueType} {c : Content} {v : Value}
    (h : checkInteger place type c = .ok v) :
    ∃ n, c.integer? (type = .scalar .bool) = some n ∧ v = .integer n := by
  unfold checkInteger Place.refuse at h
  split at h
  · cases h
  · next n hn =>
    split at h
    · cases h
      exact ⟨n, hn, rfl⟩
    · obtain ⟨_, h⟩ := refuse_eq_ok_iff.1 h
      cases h
      exact ⟨n, hn, rfl⟩

theorem checkField_integer_eq_ok {names : RecordNames} {t : Table} {index : Nat} {g : Field}
    (hg : t.IntegerAt index g) {c stored : Content} (h : checkField names t g c = .ok stored) :
    ∃ n, c.integer? (g.type = some (.scalar .bool)) = some n ∧ stored = .single (.integer n) := by
  have hone : ¬g.arity.isSequence = true := by simp [hg.arity, Arity.isSequence]
  unfold checkField at h
  split at h
  · cases h
  · next type ht =>
    rw [if_neg hone, hg.luaType, map_eq_ok_iff] at h
    obtain ⟨v, hv, rfl⟩ := h
    obtain ⟨n, hn, rfl⟩ := checkInteger_eq_ok hv
    refine ⟨n, ?_, rfl⟩
    simpa [ht] using hn

/-! ## Counts and selectors -/

theorem Table.IntegerAt.fieldAt {t : Table} {index : Nat} {g : Field} (h : t.IntegerAt index g) :
    t.fieldAt index = .ok g := by
  unfold Table.fieldAt
  rw [h.found]

theorem FieldValues.integer?_eq {values : FieldValues} {name : String} {n : Int64}
    (h : values.get name = .single (.integer n)) : values.integer? name = .ok (some n.toInt) := by
  unfold FieldValues.integer?
  rw [h]
  rfl

/-- A count says how long a sequence for the field is. -/
def Field.CountMatches (t : Table) (values : FieldValues) (f : Field) (c : Content) : Prop :=
  ∀ index g items, f.arity = .counted index → t.IntegerAt index g → c = .sequence items →
    values.get g.name = .single (.integer (Int64.ofNat items.length))

/-- The check of a length compares it with the count that the record holds. -/
theorem checkCount_yields {names : RecordNames} {t : Table} {f : Field} (hf : f.WellFormed t)
    {values : FieldValues} (hv : values.Conform names t) (items : List Value) :
    Yields (fun _ => f.CountMatches t values (.sequence items))
      (checkCount t f values items.length) := by
  unfold checkCount
  split
  · next index ha =>
    obtain ⟨g, hg⟩ := hf.counter ha
    obtain ⟨n, hn⟩ := hv.integerAt hg
    rw [hg.fieldAt, ok_bind, FieldValues.integer?_eq hn, ok_bind]
    show Yields _ (if n.toInt = items.length then .ok () else .error _)
    by_cases hlength : n.toInt = items.length
    · rw [if_pos hlength]
      intro index' g' items' ha' hg' hitems
      cases hitems
      rw [ha] at ha'
      cases ha'
      have hcount : n = Int64.ofNat items.length := by
        rw [← Int64.ofInt_toInt n, hlength]
        rfl
      rw [hg.eq_of_found hg'.found, hn, hcount]
    · rw [if_neg hlength]
      rfl
  · next hnot =>
    intro index g _ ha
    exact absurd ha (hnot index)

/-- What a check gives for a conditional field is a value that the field may hold. -/
theorem checkConditional_yields {names : RecordNames} {t : Table} {f : Field}
    (hf : f.WellFormed t) (hl : f.luaType = .conditional) {values : FieldValues}
    (hv : values.Conform names t) (c : Content) :
    Yields (fun v => f.HoldsChosen names t values (.single v))
      (checkConditional names t f values c) := by
  obtain ⟨condition, hc⟩ : ∃ condition, f.condition = some condition := by
    cases hcond : f.condition with
    | none => exact absurd hl (hf.luaType_ne hcond)
    | some condition => exact ⟨condition, rfl⟩
  obtain ⟨⟨g, hg⟩, hcases⟩ : (∃ g, t.IntegerAt condition.field g) ∧
      ∀ choice ∈ condition.cases, Represents choice.luaType choice.type := hf.condition hc
  obtain ⟨n, hn⟩ := hv.integerAt hg
  unfold checkConditional
  simp only [hc, hg.fieldAt, ok_bind, FieldValues.integer?_eq hn]
  cases hcase : condition.case? n.toInt with
  | none => rfl
  | some choice =>
    have hr := hcases choice (List.mem_of_find?_eq_some hcase)
    refine (checkSingle_yields names (t.place f) hr c).mono fun v hstored => ?_
    refine .chosen hc hg.found hn hcase ?_
    rw [checkSingle_stored names _ hstored]
    rfl

end RecordTables
