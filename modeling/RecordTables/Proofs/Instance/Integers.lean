import Mathlib.Tactic.NormNum
import RecordTables.Proofs.Instance.Accepting
import RecordTables.Proofs.Instance.Deriving
import RecordTables.Proofs.Record.Effect
import RecordTables.Proofs.Record.Integers

/-!
Floating point numbers where integers are asked for.

A number that is given for an integer of a scalar type is taken exactly if its value is an integer
within the bounds of the type, and this integer is what is stored: `floats_converted_exactly`.  That
holds for setters and constructors, and for the items of a sequence as for a single value, beside
whatever else may be wrong with the call.  The greatest integers make no exception, although the
conversion compares with a number that is itself rounded.
-/

namespace RecordTables

/-! ## Numbers within bounds -/

/-- The value of a number is an integer within bounds. -/
def Binary64.IsWithin (x : Binary64) (low high : Int) : Prop :=
  ∃ n : Int, x.value? = some (n : ℚ) ∧ low ≤ n ∧ n ≤ high

theorem Value.standsFor_float_iff {s : ScalarType} {x : Binary64} {n : Int} :
    (Value.float x).StandsFor s n ↔ x.value? = some (n : ℚ) := by
  refine ⟨fun h => ?_, .float⟩
  cases h with
  | float hx => exact hx

section

variable {s : ScalarType} {low high : Int} {x : Binary64}

theorem Binary64.value?_negativeZero :
    value? ⟨0x8000000000000000⟩ = some ((0 : Int) : ℚ) :=
  toInt?_eq_some_iff.1 (by decide +kernel)

theorem Binary64.not_isWithin_of_not_finite
    (h : ∀ negative m e, x.decode ≠ .finite negative m e) : ¬x.IsWithin low high := by
  rintro ⟨n, hn, _⟩
  unfold value? at hn
  cases hx : x.decode with
  | finite negative m e => exact h negative m e hx
  | _ => simp [hx] at hn

theorem ScalarType.isWithin_least (hb : ScalarType.int64.bounds? = some (low, high))
    (hx : x.value? = some (-2 ^ 63)) : x.IsWithin low high := by
  refine ⟨-2 ^ 63, by rw [hx]; norm_num, ?_⟩
  cases hb
  decide

theorem ScalarType.not_isWithin_beyond (hs : s = .int64 ∨ s = .uint64)
    (hb : s.bounds? = some (low, high)) (hx : x.value? = some (2 ^ 63)) :
    ¬x.IsWithin low high := by
  rintro ⟨n, hn, _, hhigh⟩
  have htwo : x.value? = some ((2 ^ 63 : Int) : ℚ) := by
    rw [hx]
    norm_num
  rw [Binary64.value?_unique hn htwo] at hhigh
  have hgreatest : high = 2 ^ 63 - 1 := by
    rcases hs with rfl | rfl
    · cases hb
      rfl
    · cases hb
      rfl
  rw [hgreatest] at hhigh
  exact absurd hhigh (by decide)

theorem ScalarType.isWithin_negativeZero (hb : s.bounds? = some (low, high)) :
    Binary64.IsWithin ⟨0x8000000000000000⟩ low high := by
  refine ⟨0, Binary64.value?_negativeZero, ?_⟩
  cases s <;> cases hb <;> decide

end

/-! ## Setters and constructors -/

namespace Instance

section

variable (i : Instance) (owner : TableRef) (s : ScalarType) (low high : Int) (p : Option Nat)
  (x : Binary64)

/-- A setter was given a number at a place that asks for an integer.  As a single value it is taken
exactly if it is an integer within the bounds, as an item if moreover the sequence is taken with
this integer in its place. -/
structure SetterConverts (r : RecordRef) (record : Record) (index : Nat) (f : Field) (v : Value) :
    Prop where
  single : p = none →
    ((callSetter owner record.table index r v).Succeeds i ↔ x.IsWithin low high)
  taken : (callSetter owner record.table index r v).Succeeds i ↔
    ∃ n : Int64, x.value? = some (n.toInt : ℚ) ∧ low ≤ n.toInt ∧ n.toInt ≤ high ∧
      f.Accepts i.records.names record.table record.values ((i.content v).put p (.integer n))
  stored : ∀ a j, (callSetter owner record.table index r v).run.run i = (.ok a, j) →
    ∃ (n : Int64) (out : FieldValues), x.value? = some (n.toInt : ℚ) ∧
      j.records.get? r = some { record with values := out } ∧
      (out.get f.name).at? p = some (.integer n)
  leastInteger : s = .int64 → x.value? = some (-2 ^ 63) → p = none →
    (callSetter owner record.table index r v).Succeeds i
  beyondGreatest : s = .int64 ∨ s = .uint64 → x.value? = some (2 ^ 63) →
    ¬(callSetter owner record.table index r v).Succeeds i
  notFinite : (∀ negative m e, x.decode ≠ .finite negative m e) →
    ¬(callSetter owner record.table index r v).Succeeds i
  negativeZero : x = ⟨0x8000000000000000⟩ → p = none → ∃ (j : Instance) (out : FieldValues),
    (callSetter owner record.table index r v).run.run i = (.ok (.record r), j) ∧
      j.records.get? r = some { record with values := out } ∧
      out.get f.name = .single (.integer 0)

/-- A constructor was given a number where a field asks for an integer.  It is taken exactly if it
is an integer within the bounds and a record can be made with this integer in its place. -/
structure ConstructorConverts (t : Table) (index : Nat) (f : Field) (args : List Value) : Prop where
  taken : ∀ values, f.AsksInteger t values s p → f.condition = none →
    ((callFunction (.accessor owner t .create) args).Succeeds i ↔
      ∃ n : Int64, x.value? = some (n.toInt : ℚ) ∧ low ≤ n.toInt ∧ n.toInt ≤ high ∧
        ∃ out, construct i.records.names t ((args.map i.content).set index
          ((i.content (args.getD index .nil)).put p (.integer n))) = .ok out)
  stored : ∀ v j, (callFunction (.accessor owner t .create) args).run.run i = (.ok v, j) →
    ∃ r values, v = .record r ∧ j.records.get? r = some ⟨t, values⟩ ∧
      (f.AsksInteger t values s p → ∃ n : Int64, x.value? = some (n.toInt : ℚ) ∧
        low ≤ n.toInt ∧ n.toInt ≤ high ∧ (values.get f.name).at? p = some (.integer n))

end

section

variable {i : Instance} {r : RecordRef} {record : Record} {t : Table} {index : Nat} {f : Field}
  {s : ScalarType} {low high : Int} {p : Option Nat} {x : Binary64} {v : Value} {args : List Value}

/-- What a setter that succeeds stores is what `storedForm` makes of its argument. -/
theorem stored_of_callSetter (hr : i.records.get? r = some record) (ht : record.table.WellFormed)
    (hv : record.values.Conform i.records.names record.table)
    (hf : record.table.fields[index]? = some f) {owner : TableRef} {a : Value} {j : Instance}
    (hrun : (callSetter owner record.table index r v).run.run i = (.ok a, j)) :
    ∃ out : FieldValues, a = .record r ∧ j.records.get? r = some { record with values := out } ∧
      storedForm i.records.names record.table f record.values (i.content v) =
        .ok (out.get f.name) := by
  rcases callSetter_cases hr owner index v with ⟨_, _, _, herror, _⟩ | ⟨u, _, hset, hok, hj⟩
  · cases herror.symm.trans hrun
  · cases hok.symm.trans hrun
    obtain ⟨stored, h, hself, _⟩ := get_of_setField ht hv hf hset
    refine ⟨u.values, rfl, ?_, hself ▸ h⟩
    rw [hj]
    exact Records.get?_put_self _ (Records.index_lt_of_get? hr)

theorem setterConverts (hr : i.records.get? r = some record) (ht : record.table.WellFormed)
    (hv : record.values.Conform i.records.names record.table)
    (hf : record.table.fields[index]? = some f) (hb : s.bounds? = some (low, high))
    (hasks : f.AsksInteger record.table record.values s p)
    (hat : (i.content v).at? p = some (.float x)) (owner : TableRef) :
    i.SetterConverts owner s low high p x r record index f v := by
  have hwf := ht.fields f (List.mem_of_getElem? hf)
  have hsucceeds : (callSetter owner record.table index r v).Succeeds i ↔ ∃ stored,
      storedForm i.records.names record.table f record.values (i.content v) = .ok stored :=
    (callSetter_succeeds_iff hr owner index v).trans (setField_isOk_iff hf _)
  have hinteger : ∀ stored,
      storedForm i.records.names record.table f record.values (i.content v) = .ok stored →
      ∃ n : Int64, x.value? = some (n.toInt : ℚ) ∧ low ≤ n.toInt ∧ n.toInt ≤ high ∧
        stored.at? p = some (.integer n) := by
    intro stored h
    obtain ⟨n, hn, h⟩ := integer_of_storedForm hwf hb hasks hat Value.noConfusion h
    exact ⟨n, Value.standsFor_float_iff.1 hn, h⟩
  have hwithin : (callSetter owner record.table index r v).Succeeds i → x.IsWithin low high := by
    intro h
    obtain ⟨stored, h⟩ := hsucceeds.1 h
    obtain ⟨n, hn, hlow, hhigh, _⟩ := hinteger stored h
    exact ⟨n.toInt, hn, hlow, hhigh⟩
  have hsingle : p = none → x.IsWithin low high →
      (callSetter owner record.table index r v).Succeeds i := by
    rintro rfl ⟨n, hn, hlow, hhigh⟩
    rw [hsucceeds, Content.at?_none hat]
    exact storedForm_single_isOk hwf hb hasks (.float hn) hlow hhigh
  have hstored : ∀ a j, (callSetter owner record.table index r v).run.run i = (.ok a, j) →
      ∃ (n : Int64) (out : FieldValues), a = .record r ∧ x.value? = some (n.toInt : ℚ) ∧
        j.records.get? r = some { record with values := out } ∧
        (out.get f.name).at? p = some (.integer n) := by
    intro a j hrun
    obtain ⟨out, ha, hout, h⟩ := stored_of_callSetter hr ht hv hf hrun
    obtain ⟨n, hn, _, _, hplace⟩ := hinteger _ h
    exact ⟨n, out, ha, hn, hout, hplace⟩
  constructor
  case single => exact fun hp => ⟨hwithin, hsingle hp⟩
  case stored =>
    intro a j hrun
    obtain ⟨n, out, _, h⟩ := hstored a j hrun
    exact ⟨n, out, h⟩
  case taken =>
    rw [hsucceeds]
    constructor
    · rintro ⟨stored, h⟩
      obtain ⟨n, hn, hlow, hhigh, _⟩ := hinteger stored h
      refine ⟨n, hn, hlow, hhigh, (storedForm_isOk_iff hwf hv _).1 ⟨stored, ?_⟩⟩
      rw [storedForm_put hwf hb hasks hat (.float hn), h]
    · rintro ⟨n, hn, _, _, haccepts⟩
      rw [← storedForm_isOk_iff hwf hv, storedForm_put hwf hb hasks hat (.float hn)] at haccepts
      exact haccepts
  case leastInteger =>
    rintro rfl hx hp
    exact hsingle hp (ScalarType.isWithin_least hb hx)
  case beyondGreatest => exact fun hs hx => mt hwithin (ScalarType.not_isWithin_beyond hs hb hx)
  case notFinite => exact fun hx => mt hwithin (Binary64.not_isWithin_of_not_finite hx)
  case negativeZero =>
    rintro rfl rfl
    obtain ⟨a, j, hrun⟩ := hsingle rfl (ScalarType.isWithin_negativeZero hb)
    obtain ⟨n, out, rfl, hn, hout, hplace⟩ := hstored a j hrun
    have hzero : n = 0 :=
      Int64.toInt_inj.1 (Binary64.value?_unique hn Binary64.value?_negativeZero)
    exact ⟨j, out, hrun, hout, hzero ▸ Content.at?_none hplace⟩

theorem constructorConverts (ht : t.WellFormed) (hf : t.fields[index]? = some f)
    (hb : s.bounds? = some (low, high))
    (hat : (i.content (args.getD index .nil)).at? p = some (.float x)) (owner : TableRef) :
    i.ConstructorConverts owner s low high p x t index f args := by
  have hwf := ht.fields f (List.mem_of_getElem? hf)
  rw [← i.argument_map_content] at hat
  have hne := Content.ne_nil_of_at? hat Value.noConfusion
  have hinteger : ∀ out, construct i.records.names t (args.map i.content) = .ok out →
      f.AsksInteger t out s p → ∃ n : Int64, x.value? = some (n.toInt : ℚ) ∧ low ≤ n.toInt ∧
        n.toInt ≤ high ∧ (out.get f.name).at? p = some (.integer n) := by
    intro out hout hasks
    have hargs := i.completes_completed t args
    have hsettled :=
      settle_of_construct_completed ht (i.countable_content args) hargs hout index f hf
    rw [hargs.argument_eq hf, completedArgument_of_ne hne] at hsettled
    obtain ⟨n, hn, h⟩ :=
      integer_of_storedForm hwf hb hasks hat Value.noConfusion (hsettled.storedForm_eq hne)
    exact ⟨n, Value.standsFor_float_iff.1 hn, h⟩
  constructor
  · intro values hasks hc
    have hcreate : (callFunction (.accessor owner t .create) args).Succeeds i ↔
        ∃ out, construct i.records.names t (args.map i.content) = .ok out :=
      createRecord_succeeds_iff
    rw [hcreate]
    constructor
    · rintro ⟨out, hout⟩
      obtain ⟨n, hn, hlow, hhigh, _⟩ := hinteger out hout (hasks.of_condition_eq_none hc)
      refine ⟨n, hn, hlow, hhigh, out, ?_⟩
      rw [← i.argument_map_content, construct_put ht hf hb hasks hc hat (.float hn), hout]
    · rintro ⟨n, hn, _, _, out, hout⟩
      rw [← i.argument_map_content, construct_put ht hf hb hasks hc hat (.float hn)] at hout
      exact ⟨out, hout⟩
  · intro v j hrun
    obtain ⟨out, hout⟩ := construct_of_createRecord hrun
    obtain ⟨r, k, hmade, hk, _⟩ := building_createRecord args hout
    cases hrun.symm.trans hmade
    exact ⟨r, out, rfl, hk.holds, hinteger out hout⟩

end
end Instance

/-- A floating point number that is given for an integer of a scalar type is converted exactly or
refused, by the setter of a field in every state that a run reaches and by the constructor of every
table. -/
theorem floats_converted_exactly {d : Declarations} {s : TableSet}
    (hs : TableSet.ofDeclarations d = .ok s) {scalar : ScalarType} {low high : Int}
    (hb : scalar.bounds? = some (low, high)) (p : Option Nat) (x : Binary64) (owner : TableRef) :
    (∀ moves : List Move, (∀ m ∈ moves, m.Within s) → ∀ i, i = Instance.created.after moves →
        ∀ r record, i.records.get? r = some record →
          ∀ index f, record.table.fields[index]? = some f →
            f.AsksInteger record.table record.values scalar p →
            ∀ v, (i.content v).at? p = some (.float x) →
              i.SetterConverts owner scalar low high p x r record index f v) ∧
      ∀ t ∈ s.tables, ∀ index f, t.fields[index]? = some f → ∀ (i : Instance) args,
        (i.content (args.getD index .nil)).at? p = some (.float x) →
          i.ConstructorConverts owner scalar low high p x t index f args := by
  have hsound := wellFormed_of_resolves hs
  constructor
  · rintro moves hm i rfl r record hr index f hf hasks v hat
    obtain ⟨htable, hv⟩ := conform_after hsound hm r record hr
    exact Instance.setterConverts hr (hsound.tables record.table htable) hv hf hb hasks hat owner
  · intro t ht index f hf i args hat
    exact Instance.constructorConverts (hsound.tables t ht) hf hb hat owner

/-! ## An example

A span has an offset, a size and two more offsets. -/

def spanDeclarations : Declarations where
  read := [⟨"span", "span_t", [
    ⟨"offset", none, some "int64", .integer, none, none, []⟩,
    ⟨"size", none, some "uint64", .integer, none, none, []⟩,
    ⟨"ends", none, some "int64", .table, some (.fixed 2), none, []⟩]⟩]
  definition := []

def spanTable : Table where
  tag := "span"
  name := "span_t"
  origin := .read
  fields := [
    ⟨"offset", "offset", .integer, some (.scalar .int64), .one, none⟩,
    ⟨"size", "size", .integer, some (.scalar .uint64), .one, none⟩,
    ⟨"ends", "ends", .table, some (.scalar .int64), .fixed 2, none⟩]

def spanSet : TableSet := ⟨[spanTable]⟩

/-- The number of the least integer. -/
def leastNumber : Binary64 := ⟨0xc3e0000000000000⟩

/-- The number after the greatest integer. -/
def beyondNumber : Binary64 := ⟨0x43e0000000000000⟩

/-- A span is made, and a table of an offset and a number comes along. -/
def spanMoves : List Move :=
  let made : Move := .call (.accessor Instance.globals spanTable .create) []
  [made, .other ((Instance.created.after [made]).newTable
    (.ofItems [.integer 7, .float leastNumber])).1]

def spanRecord : Record where
  table := spanTable
  values := ⟨[("ends", .nil), ("size", .single (.integer 0)), ("offset", .single (.integer 0))]⟩

theorem spanMoves_within : ∀ m ∈ spanMoves, m.Within spanSet := by
  intro m hm
  simp only [spanMoves, List.mem_cons, List.not_mem_nil, or_false] at hm
  rcases hm with rfl | rfl
  · exact Function.belongs_iff.2
      ⟨spanTable, List.mem_cons_self, Instance.globals, .create, rfl, trivial⟩
  · trivial

theorem value?_leastNumber : leastNumber.value? = some (-2 ^ 63) := by
  have h : leastNumber.value? = some ((-2 ^ 63 : Int) : ℚ) :=
    Binary64.toInt?_eq_some_iff.1 (by decide +kernel)
  rw [h]
  norm_num

theorem value?_beyondNumber : beyondNumber.value? = some (2 ^ 63) := by
  have h : beyondNumber.value? = some ((2 ^ 63 : Int) : ℚ) :=
    Binary64.toInt?_eq_some_iff.1 (by decide +kernel)
  rw [h]
  norm_num

/-- The least integer is taken as an offset and as an end, the number after the greatest neither as
an offset nor as a size, and a span that is made at a negative zero is at zero. -/
theorem floats_converted_exactly_span :
    TableSet.ofDeclarations spanDeclarations = .ok spanSet ∧ (∀ m ∈ spanMoves, m.Within spanSet) ∧
      (Instance.created.after spanMoves).records.get? ⟨0⟩ = some spanRecord ∧
      (Instance.callSetter Instance.globals spanTable 0 ⟨0⟩ (.float leastNumber)).Succeeds
        (Instance.created.after spanMoves) ∧
      (Instance.callSetter Instance.globals spanTable 2 ⟨0⟩ (.table ⟨6⟩)).Succeeds
        (Instance.created.after spanMoves) ∧
      ¬(Instance.callSetter Instance.globals spanTable 0 ⟨0⟩ (.float beyondNumber)).Succeeds
        (Instance.created.after spanMoves) ∧
      ¬(Instance.callSetter Instance.globals spanTable 1 ⟨0⟩ (.float beyondNumber)).Succeeds
        (Instance.created.after spanMoves) ∧
      ∃ j r values, (Instance.callFunction (.accessor Instance.globals spanTable .create)
          [.float ⟨0x8000000000000000⟩]).run.run Instance.created = (.ok (.record r), j) ∧
        j.records.get? r = some ⟨spanTable, values⟩ ∧
        values.get "offset" = .single (.integer 0) := by
  have haccepted : TableSet.ofDeclarations spanDeclarations = .ok spanSet := rfl
  have hspan : (Instance.created.after spanMoves).records.get? ⟨0⟩ = some spanRecord := rfl
  have hconverts := fun (s : ScalarType) {low high : Int} (hb : s.bounds? = some (low, high)) p x =>
    floats_converted_exactly haccepted hb p x Instance.globals
  have hoffset := fun x => (hconverts .int64 rfl none x).1 spanMoves spanMoves_within _ rfl ⟨0⟩
    spanRecord hspan 0 _ rfl (.field rfl rfl rfl) (.float x) rfl
  have hsize := fun x => (hconverts .uint64 rfl none x).1 spanMoves spanMoves_within _ rfl ⟨0⟩
    spanRecord hspan 1 _ rfl (.field rfl rfl rfl) (.float x) rfl
  have hends := (hconverts .int64 rfl (some 1) leastNumber).1 spanMoves spanMoves_within _ rfl ⟨0⟩
    spanRecord hspan 2 _ rfl (.item 1 Arity.noConfusion rfl) (.table ⟨6⟩) rfl
  have hmade := (hconverts .int64 rfl none ⟨0x8000000000000000⟩).2 spanTable List.mem_cons_self 0 _
    rfl Instance.created [.float ⟨0x8000000000000000⟩] rfl
  have hsuits : ∀ i : Int64, (Value.integer i).SuitsItem
      (Instance.created.after spanMoves).records.names (.scalar .int64) := by
    intro i
    exact .integer (.integer rfl (.integer i) (Int64.le_toInt i)
      (Int.le_of_lt_add_one (Int64.toInt_lt i)))
  refine ⟨haccepted, spanMoves_within, hspan, ?_, ?_, ?_, ?_, ?_⟩
  · exact (hoffset leastNumber).leastInteger rfl value?_leastNumber rfl
  · have hleast : leastNumber.value? = some (Int64.minValue.toInt : ℚ) :=
      Value.exactInteger?_eq_some_iff.1 rfl
    refine hends.taken.2 ⟨Int64.minValue, hleast, by decide, by decide, ?_⟩
    show Field.Accepts _ _ _ _ (.sequence [.integer 7, .integer Int64.minValue])
    refine .sequence Arity.noConfusion rfl ?_ ?_ ?_
    · intro n hn
      cases hn
      rfl
    · intro count ha
      cases ha
    · intro v hv
      rcases List.mem_cons.1 hv with rfl | hv
      · exact hsuits 7
      · rw [List.mem_singleton.1 hv]
        exact hsuits Int64.minValue
  · exact (hoffset beyondNumber).beyondGreatest (.inl rfl) value?_beyondNumber
  · exact (hsize beyondNumber).beyondGreatest (.inr rfl) value?_beyondNumber
  · obtain ⟨v, j, hrun⟩ := (hmade.taken .empty (.field rfl rfl rfl) rfl).2
      ⟨0, Binary64.value?_negativeZero, by decide, by decide, _, rfl⟩
    obtain ⟨r, values, rfl, hget, hstored⟩ := hmade.stored v j hrun
    obtain ⟨n, hn, _, _, hplace⟩ := hstored (.field rfl rfl rfl)
    have hzero : n = 0 :=
      Int64.toInt_inj.1 (Binary64.value?_unique hn Binary64.value?_negativeZero)
    exact ⟨j, r, values, hrun, hget, hzero ▸ Content.at?_none hplace⟩

end RecordTables
