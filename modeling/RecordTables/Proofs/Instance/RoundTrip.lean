import RecordTables.Proofs.Instance.Commuting
import RecordTables.Proofs.Instance.Counts
import RecordTables.Proofs.Instance.Sequences
import RecordTables.Proofs.Record.Storing

/-!
What a getter gives, given back to the setter.

A getter gives what a record holds, and a sequence as a table of its own.  The setter reads the same
content from that table, and what a record holds is in its stored form already, so that nothing
changes: `field_round_trip`.  For a field with a count or a selector this is said right after it was
set.  Later its count may say something else, and its selector may have left a value in the form of
another case.
-/

namespace RecordTables

/-! ## Contents on their way through Lua -/

/-- A content that Lua can hold: a value that is no table, or the items of a table, none of which is
nil. -/
inductive Content.Returnable : Content → Prop
  | single {v : Value} (h : ∀ r, v ≠ .table r) : Returnable (.single v)
  | sequence {items : List Value} (hlength : items.length ≤ LuaTable.lengthLimit)
      (h : ∀ v ∈ items, v ≠ .nil) : Returnable (.sequence items)

theorem Stored.ne_table {names : RecordNames} {luaType : LuaType} {type : ValueType} {v : Value}
    (h : Stored names luaType type v) (r : TableRef) : v ≠ .table r := by
  cases h <;> exact Value.noConfusion

theorem Field.Holds.returnable {names : RecordNames} {t : Table} {values : FieldValues} {f : Field}
    {c : Content} (h : f.Holds names t values c) (hshort : c.Short) : c.Returnable := by
  by_cases hl : f.luaType = .conditional
  · cases h.chosen hl with
    | unset => exact .single fun _ => Value.noConfusion
    | @chosen _ _ _ choice v _ _ _ _ hok =>
      refine .single fun r hv => ?_
      subst hv
      generalize choice.luaType = luaType at hok
      generalize choice.type = type at hok
      cases luaType with
      | table => cases type <;> cases hok
      | _ => cases hok
  · cases h.plain hl with
    | unset => exact .single fun _ => Value.noConfusion
    | single _ _ hv => exact .single hv.ne_table
    | sequence _ _ _ hitems => exact .sequence (hshort _ rfl) fun v hv => (hitems v hv).ne_nil

/-- No sequence of a record is longer than a Lua table can be. -/
def Records.Short (rs : Records) : Prop :=
  ∀ r record, rs.get? r = some record →
    ∀ f ∈ record.table.fields, (record.values.get f.name).Short

theorem Field.HoldsChosen.short {names : RecordNames} {t : Table} {values : FieldValues}
    {f : Field} {c : Content} (h : f.HoldsChosen names t values c) : c.Short := by
  intro items hitems
  cases h with
  | unset => cases hitems
  | chosen => cases hitems

section

variable {s : TableSet} {rs : Records}

theorem Records.Short.serve (hs : s.WellFormed) (hconform : rs.Conform s) (h : rs.Short)
    {q : Request} (hq : q.Within s) : (rs.serve q).Short := by
  cases q with
  | create t args =>
    simp only [Records.serve, Records.answer]
    cases hx : rs.create t args with
    | error refusal => exact h
    | ok out =>
      obtain ⟨values, rfl, hvalues, _, hlengths⟩ := (Records.create_yields hs hq.1 args).of_ok hx
      intro r record hr f hf
      rcases Records.get?_push_eq_some hr with hold | rfl
      · exact h r record hold f hf
      · by_cases hl : f.luaType = .conditional
        · exact ((hvalues f hf).chosen hl).short
        · exact (hlengths f hf hl).short hq.2
  | set t index r c =>
    obtain ⟨ht, ⟨k, hk⟩, hc⟩ := hq
    simp only [Records.serve, Records.answer]
    cases hx : rs.setField t index r c with
    | error refusal => exact h
    | ok out =>
      obtain ⟨record, values, stored, hr, htable, hout, hvalues, hset⟩ :=
        (Records.setField_yields hs hconform ht hk r c).of_ok hx
      subst htable
      simp only [Except.map, hout]
      have hmem := List.mem_of_getElem? hk
      intro other found hother f hf
      rcases Records.get?_put_eq_some hother with hold | ⟨_, rfl⟩
      · exact h other found hold f hf
      by_cases hl : f.luaType = .conditional
      · exact ((hvalues f hf).chosen hl).short
      by_cases hname : f.name = k.name
      · have hsame : f = k := (hs.tables record.table ht).eq_of_name hf hmem hname
        subst hsame
        have hwf := (hs.tables record.table ht).fields f hmem
        have hlength := ((storedForm_yields hwf (hconform r record hr).2 c).of_ok hset.form).2.1
        show (values.get f.name).Short
        rw [hset.self hl]
        exact hlength.short hc
      · show (values.get f.name).Short
        rw [hset.others f hf hl hname]
        exact h r record hr f hf

theorem Records.short_empty : Records.empty.Short := by
  intro r record h
  simp [Records.get?, Records.empty] at h

theorem short_after (hs : s.WellFormed) {moves : List Move} (hm : ∀ m ∈ moves, m.Within s) :
    (Instance.created.after moves).records.Short :=
  (Instance.records_induction (P := fun rs => rs.Conform s ∧ rs.Short)
    ⟨Records.conform_empty s, Records.short_empty⟩
    (fun _ _ h hq => ⟨h.1.serve hs hq, h.2.serve hs h.1 hq⟩) hm).2

end

/-! ## Calls -/

namespace Instance

/-- Calls the getter of the field at an index of a table. -/
def callGetter (owner : TableRef) (t : Table) (index : Nat) (r : RecordRef) : Action Value :=
  callFunction (.accessor owner t (.get index)) [.record r]

/-- The getter of a field gives a content, a sequence as a table that was not there before, and the
setter takes what the getter gave.  Neither of them changes what a record holds. -/
def RoundTrips (i : Instance) (owner : TableRef) (t : Table) (index : Nat) (r : RecordRef)
    (c : Content) : Prop :=
  ∃ w k l, (callGetter owner t index r).run.run i = (.ok w, k) ∧ k.content w = c ∧
    (∀ new, w = .table new → i.tables.size ≤ new.index) ∧ k.records = i.records ∧
    (callSetter owner t index r w).run.run k = (.ok (.record r), l) ∧ k.records.Alike l.records

theorem records_callGetter (i : Instance) (owner : TableRef) (t : Table) (index : Nat)
    (args : List Value) :
    ((callFunction (.accessor owner t (.get index)) args).run.run i).2.records = i.records :=
  records_useClass i t (.get index) args

section

variable {i : Instance} {r : RecordRef} {record : Record} {index : Nat} {f : Field}

/-- A getter gives the content that a record holds. -/
theorem run_callGetter (hr : i.records.get? r = some record)
    (hf : record.table.fields[index]? = some f) (owner : TableRef)
    (hc : (record.values.get f.name).Returnable) :
    ∃ w k, (callGetter owner record.table index r).run.run i = (.ok w, k) ∧
      k.content w = record.values.get f.name ∧
      (∀ new, w = .table new → i.tables.size ≤ new.index) ∧ k.records = i.records := by
  have hrun : (callGetter owner record.table index r).run.run i =
      (getField record.table index r).run.run i := rfl
  rw [run_getField, Records.getField_of_get? hr hf] at hrun
  generalize record.values.get f.name = c at hc hrun
  cases hc with
  | @single v hv =>
    refine ⟨v, i, hrun, ?_, fun new hnew => absurd hnew (hv new), rfl⟩
    cases v with
    | table new => exact absurd rfl (hv new)
    | _ => rfl
  | @sequence items hlength hitems =>
    refine ⟨_, _, hrun, ?_, fun new hnew => ?_, rfl⟩
    · show Content.sequence
        ((i.newTable (.grown items)).1.table (i.newTable (.grown items)).2).toList = .sequence items
      rw [table_newTable_self, LuaTable.toList_grown hlength hitems]
    · cases hnew
      exact Nat.le_refl _

/-- A field that would store what it holds can be read and written back. -/
theorem roundTrips_of_held (hr : i.records.get? r = some record) (ht : record.table.WellFormed)
    (hv : record.values.Conform i.records.names record.table)
    (hf : record.table.fields[index]? = some f) (owner : TableRef)
    (hshort : (record.values.get f.name).Short)
    (hheld : storedForm i.records.names record.table f record.values (record.values.get f.name) =
      .ok (record.values.get f.name)) :
    i.RoundTrips owner record.table index r (record.values.get f.name) := by
  obtain ⟨w, k, hget, hcontent, hnew, hk⟩ :=
    run_callGetter hr hf owner ((hv f (List.mem_of_getElem? hf)).returnable hshort)
  obtain ⟨u, hu, hsame⟩ := get_of_setField_held ht hv hf hheld
  rw [← hk] at hr hu
  rw [← hcontent] at hu
  rcases callSetter_cases hr owner index w with ⟨_, _, hset, _⟩ | ⟨u', l, hset, hrun, hl⟩
  · cases hu.symm.trans hset
  · cases hu.symm.trans hset
    refine ⟨w, k, l, hget, hcontent, hnew, hk, hrun, fun other => ?_⟩
    rw [hl]
    by_cases hother : other = r
    · rw [hother, hr, Records.get?_put_self _ (Records.index_lt_of_get? hr)]
      exact .some ⟨rfl, hsame⟩
    · rw [Records.get?_put_of_ne _ _ hother]
      exact Records.Alike.refl _ other

/-- What a setter took is given in its stored form, and can be written back. -/
theorem roundTrips_of_callSetter (hr : i.records.get? r = some record)
    (ht : record.table.WellFormed) (hv : record.values.Conform i.records.names record.table)
    (hf : record.table.fields[index]? = some f) (owner : TableRef) {v a : Value} {j : Instance}
    (hrun : (callSetter owner record.table index r v).run.run i = (.ok a, j)) :
    ∃ c, f.StoresAs record.table record.values (i.content v) c ∧
      j.RoundTrips owner record.table index r c := by
  have hwf := ht.fields f (List.mem_of_getElem? hf)
  obtain ⟨stored, hstored⟩ :=
    (setField_isOk_iff hf _).1 ((callSetter_succeeds_iff hr owner index v).1 ⟨a, j, hrun⟩)
  have hlength := ((storedForm_yields hwf hv _).of_ok hstored).2.1
  have hj : i.AfterSetter r record index (i.content v) j := by
    have hafter := afterSetter_callSetter hr owner index v
    rw [hrun] at hafter
    exact hafter
  have hself := get_setOrKept_self ht hv hf hstored
  have htrip := roundTrips_of_held hj.self ht (hj.names ▸ setOrKept_conform ht hv hf _) hf owner
  rw [hself, hj.names] at htrip
  exact ⟨stored, storesAs_of_storedForm hwf hv hstored,
    htrip (hlength.short (i.content_short v)) (storedForm_setOrKept_self ht hv hf hstored)⟩

end
end Instance

/-- What was set is given in its stored form and can be given back.  A getter changes no record.
Whatever a field without count and selector holds can be given back, too. -/
theorem field_round_trip {d : Declarations} {s : TableSet}
    (hs : TableSet.ofDeclarations d = .ok s) {moves : List Move} (hm : ∀ m ∈ moves, m.Within s)
    {i : Instance} (hi : i = Instance.created.after moves) {r : RecordRef} {record : Record}
    (hr : i.records.get? r = some record) {index : Nat} {f : Field}
    (hf : record.table.fields[index]? = some f) (owner : TableRef) :
    (∀ v a j, (Instance.callSetter owner record.table index r v).run.run i = (.ok a, j) →
        ∃ c, f.StoresAs record.table record.values (i.content v) c ∧
          j.RoundTrips owner record.table index r c) ∧
      (∀ (j : Instance) args,
        ((Instance.callFunction (.accessor owner record.table (.get index)) args).run.run
          j).2.records = j.records) ∧
      ((∀ count, f.arity ≠ .counted count) → f.condition = none →
        i.RoundTrips owner record.table index r (record.values.get f.name)) := by
  have hsound := wellFormed_of_resolves hs
  subst hi
  have hconform := conform_after hsound hm
  obtain ⟨htable, hv⟩ := hconform r record hr
  have hwf := hsound.tables record.table htable
  have hmem := List.mem_of_getElem? hf
  refine ⟨fun v a j hrun => Instance.roundTrips_of_callSetter hr hwf hv hf owner hrun,
    fun j args => Instance.records_callGetter j owner _ index args, fun ha hc => ?_⟩
  have hl := (hwf.fields f hmem).luaType_ne hc
  have hcount : ∀ length, checkCount record.table f record.values length = .ok () := fun length =>
    (checkCount_eq_ok_iff (hwf.fields f hmem) hv length).2 fun count h => absurd h (ha count)
  exact Instance.roundTrips_of_held hr hwf hv hf owner (short_after hsound hm r record hr f hmem)
    (storedForm_of_holdsPlain (hwf.fields f hmem) hl ((hv f hmem).plain hl) fun _ _ => hcount _)

/-- The bytes of a node are set, read and written back, and its count is read and written back. -/
theorem field_round_trip_node :
    TableSet.ofDeclarations nodeDeclarations = .ok nodeSet ∧ (∀ m ∈ nodeMoves, m.Within nodeSet) ∧
      (Instance.created.after nodeMoves).records.get? ⟨0⟩ = some nodeRecord ∧
      (∃ j c, (Instance.callSetter Instance.globals nodeTable 1 ⟨0⟩ (.table ⟨6⟩)).run.run
          (Instance.created.after nodeMoves) = (.ok (.record ⟨0⟩), j) ∧
        nodeTable.fields[1].StoresAs nodeTable nodeRecord.values
          (.sequence [.integer 7, .integer 8]) c ∧
        j.RoundTrips Instance.globals nodeTable 1 ⟨0⟩ c) ∧
      (Instance.created.after nodeMoves).RoundTrips Instance.globals nodeTable 0 ⟨0⟩
        (.single (.integer 2)) := by
  have haccepted : TableSet.ofDeclarations nodeDeclarations = .ok nodeSet := rfl
  have hnode : (Instance.created.after nodeMoves).records.get? ⟨0⟩ = some nodeRecord := rfl
  have hcount : nodeRecord.table.fields[0]? = some nodeTable.fields[0] := rfl
  have hbytes : nodeRecord.table.fields[1]? = some nodeTable.fields[1] := rfl
  refine ⟨haccepted, nodeMoves_within, hnode, ?_, ?_⟩
  · obtain ⟨hset, _⟩ :=
      field_round_trip haccepted nodeMoves_within rfl hnode hbytes Instance.globals
    obtain ⟨c, hc, hj⟩ := hset (.table ⟨6⟩) _ _ rfl
    exact ⟨_, c, rfl, hc, hj⟩
  · exact (field_round_trip haccepted nodeMoves_within rfl hnode hcount Instance.globals).2.2
      (fun _ => Arity.noConfusion) rfl

end RecordTables
