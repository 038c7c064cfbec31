import RecordTables.Proofs.Instance.Run

/-!
Records are typed.

Whatever functions of its classes a program calls, with whatever arguments and in whatever order, the
records of a table set always hold what the declarations of their fields ask for.
-/

namespace RecordTables

/-- Every record of a run belongs to a table of the set, and each of its fields holds what it may
hold. -/
theorem records_hold {d : Declarations} {s : TableSet} (hs : TableSet.ofDeclarations d = .ok s)
    {moves : List Move} (hm : ∀ m ∈ moves, m.Within s) {r : RecordRef} {record : Record}
    (hr : (Instance.created.after moves).records.get? r = some record) :
    record.table ∈ s.tables ∧ ∀ f ∈ record.table.fields,
      f.Holds (Instance.created.after moves).records.names record.table record.values
        (record.values.get f.name) :=
  conform_after (wellFormed_of_resolves hs) hm r record hr

/-- The node that holds itself. -/
def nodeRecord : Record where
  table := nodeTable
  values := ⟨[("v", .single (.record ⟨0⟩)), ("n", .single (.integer 2)),
    ("xs", .sequence [.integer 7, .integer 8])]⟩

theorem records_hold_node :
    TableSet.ofDeclarations nodeDeclarations = .ok nodeSet ∧ (∀ m ∈ nodeMoves, m.Within nodeSet) ∧
      (Instance.created.after nodeMoves).records.get? ⟨0⟩ = some nodeRecord ∧
      nodeRecord.table ∈ nodeSet.tables ∧ ∀ f ∈ nodeRecord.table.fields,
        f.Holds (Instance.created.after nodeMoves).records.names nodeRecord.table nodeRecord.values
          (nodeRecord.values.get f.name) := by
  have haccepted : TableSet.ofDeclarations nodeDeclarations = .ok nodeSet := rfl
  have hnode : (Instance.created.after nodeMoves).records.get? ⟨0⟩ = some nodeRecord := rfl
  exact ⟨haccepted, nodeMoves_within, hnode, records_hold haccepted nodeMoves_within hnode⟩

end RecordTables
