import RecordTables.Proofs.Instance.Accepting
import RecordTables.Proofs.Record.Effect

/-!
Setters change what they must and nothing else.

A setter that fails leaves every record as it was.  One that succeeds leaves all other records, and
in its own record it changes the field and drops the conditional values that the field no longer
allows: `setter_effect`.
-/

namespace RecordTables

/-- A failed call leaves the records; a successful one changes the contents of one record, as setting
the field does. -/
theorem setter_effect {d : Declarations} {s : TableSet}
    (hs : TableSet.ofDeclarations d = .ok s) {moves : List Move} (hm : ∀ m ∈ moves, m.Within s)
    {i : Instance} (hi : i = Instance.created.after moves) {r : RecordRef} {record : Record}
    (hr : i.records.get? r = some record) {index : Nat} {f : Field}
    (hf : record.table.fields[index]? = some f) (owner : TableRef) (v : Value) :
    (∀ e j, (Instance.callSetter owner record.table index r v).run.run i = (.error e, j) →
        j.records = i.records) ∧
      ∀ a j, (Instance.callSetter owner record.table index r v).run.run i = (.ok a, j) →
        (∀ other, other ≠ r → j.records.get? other = i.records.get? other) ∧
        ∃ out, j.records.get? r = some { record with values := out } ∧
          SetterEffect i.records.names record.table index f (i.content v) record.values out := by
  have hsound := wellFormed_of_resolves hs
  subst hi
  obtain ⟨htable, hv⟩ := conform_after hsound hm r record hr
  rcases Instance.callSetter_cases hr owner index v with
    ⟨refusal, j, _, hrun, hj⟩ | ⟨u, j, hset, hrun, hj⟩
  · constructor
    · intro e j' h
      cases hrun.symm.trans h
      exact hj
    · intro a j' h
      cases hrun.symm.trans h
  · constructor
    · intro e j' h
      cases hrun.symm.trans h
    · intro a j' h
      cases hrun.symm.trans h
      rw [hj]
      refine ⟨fun other hother => Records.get?_put_of_ne _ _ hother, u.values, ?_, ?_⟩
      · exact Records.get?_put_self _ (Records.index_lt_of_get? hr)
      · exact setterEffect_of_setField (hsound.tables record.table htable) hv hf hset

/-- The node that holds itself is told that it has one byte, and then that it has too many. -/
theorem setter_effect_node :
    TableSet.ofDeclarations nodeDeclarations = .ok nodeSet ∧ (∀ m ∈ nodeMoves, m.Within nodeSet) ∧
      (Instance.created.after nodeMoves).records.get? ⟨0⟩ = some nodeRecord ∧
      (∃ j out, (Instance.callSetter Instance.globals nodeTable 0 ⟨0⟩ (.integer 1)).run.run
          (Instance.created.after nodeMoves) = (.ok (.record ⟨0⟩), j) ∧
        j.records.get? ⟨0⟩ = some { nodeRecord with values := out } ∧
        SetterEffect (Instance.created.after nodeMoves).records.names nodeTable 0
          nodeTable.fields[0] (.single (.integer 1)) nodeRecord.values out) ∧
      ∃ e j, (Instance.callSetter Instance.globals nodeTable 0 ⟨0⟩ (.integer 300)).run.run
          (Instance.created.after nodeMoves) = (.error e, j) ∧
        j.records = (Instance.created.after nodeMoves).records := by
  have haccepted : TableSet.ofDeclarations nodeDeclarations = .ok nodeSet := rfl
  have hnode : (Instance.created.after nodeMoves).records.get? ⟨0⟩ = some nodeRecord := rfl
  have hcount : nodeRecord.table.fields[0]? = some nodeTable.fields[0] := rfl
  have heffect := fun v =>
    setter_effect haccepted nodeMoves_within rfl hnode hcount Instance.globals v
  refine ⟨haccepted, nodeMoves_within, hnode, ?_, ?_⟩
  · obtain ⟨_, out, hout, hset⟩ := (heffect (.integer 1)).2 _ _ rfl
    exact ⟨_, out, rfl, hout, hset⟩
  · exact ⟨_, _, rfl, (heffect (.integer 300)).1 _ _ rfl⟩

end RecordTables
