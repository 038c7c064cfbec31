import RecordTables.Proofs.Instance.Agreement
import RecordTables.Proofs.Instance.Typing
import RecordTables.Proofs.Record.Accepting

/-!
Setters take exactly what fits.

In every state that a run reaches, the setter of a field of a record succeeds for the values that the
field accepts and for no others, which is `setter_succeeds_iff`.  A sequence with an item that does
not suit is refused with the place of the first such item.
-/

namespace RecordTables
namespace Instance

/-- Calls the setter of the field at an index of a table. -/
def callSetter (owner : TableRef) (t : Table) (index : Nat) (r : RecordRef) (v : Value) :
    Action Value :=
  callFunction (.accessor owner t (.set index)) [.record r, v]

section

variable {i : Instance} {r : RecordRef} {record : Record}

/-- A setter either refuses and leaves the records, or puts new contents into its record. -/
theorem callSetter_cases (hr : i.records.get? r = some record) (owner : TableRef) (index : Nat)
    (v : Value) :
    (∃ refusal j, RecordTables.setField i.records.names record.table index record.values
        (i.content v) = .error refusal ∧
      (callSetter owner record.table index r v).run.run i = (.error refusal.toLuaError, j) ∧
      j.records = i.records) ∨
    ∃ u j, RecordTables.setField i.records.names record.table index record.values
        (i.content v) = .ok u ∧
      (callSetter owner record.table index r v).run.run i = (.ok (.record r), j) ∧
      j.records = i.records.put r { record with values := u.values } := by
  have hcall : (callSetter owner record.table index r v).run.run i =
      (setField record.table index r v).run.run i := rfl
  have houtcome := outcome_setField i record.table index r v
  have hrecords := records_setField i record.table index r v
  rw [Records.setField_of_get? hr] at houtcome hrecords
  rw [hcall]
  generalize (setField record.table index r v).run.run i = run at houtcome hrecords ⊢
  obtain ⟨outcome, j⟩ := run
  cases hset : RecordTables.setField i.records.names record.table index record.values
      (i.content v) with
  | error refusal =>
    rw [hset] at houtcome hrecords
    exact Or.inl ⟨refusal, j, rfl, congrArg (·, j) houtcome, hrecords⟩
  | ok u =>
    rw [hset] at houtcome hrecords
    exact Or.inr ⟨u, j, rfl, congrArg (·, j) houtcome, hrecords⟩

theorem callSetter_succeeds_iff (hr : i.records.get? r = some record) (owner : TableRef)
    (index : Nat) (v : Value) :
    (callSetter owner record.table index r v).Succeeds i ↔
      ∃ u, RecordTables.setField i.records.names record.table index record.values
        (i.content v) = .ok u := by
  rcases callSetter_cases hr owner index v with ⟨refusal, j, hset, hrun, _⟩ | ⟨u, j, hset, hrun, _⟩
  · rw [hset]
    constructor
    · intro h
      obtain ⟨a, j', h⟩ := h
      cases hrun.symm.trans h
    · intro h
      obtain ⟨u, h⟩ := h
      cases h
  · exact ⟨fun _ => ⟨u, hset⟩, fun _ => ⟨.record r, j, hrun⟩⟩

end
end Instance

/-- The setter of a field succeeds exactly for the values that the field accepts.  A table with an
item that does not suit is refused at the first such item, unless the length is refused first. -/
theorem setter_succeeds_iff {d : Declarations} {s : TableSet}
    (hs : TableSet.ofDeclarations d = .ok s) {moves : List Move} (hm : ∀ m ∈ moves, m.Within s)
    {i : Instance} (hi : i = Instance.created.after moves) {r : RecordRef} {record : Record}
    (hr : i.records.get? r = some record) {index : Nat} {f : Field}
    (hf : record.table.fields[index]? = some f) (owner : TableRef) (v : Value) :
    ((Instance.callSetter owner record.table index r v).Succeeds i ↔
        f.Accepts i.records.names record.table record.values (i.content v)) ∧
      ∀ type before w after, f.arity ≠ .one → f.type = some type →
        i.content v = .sequence (before ++ w :: after) →
        (∀ n, f.arity = .fixed n → (before ++ w :: after).length = n) →
        (∀ u ∈ before, u.SuitsItem i.records.names type) → ¬w.SuitsItem i.records.names type →
        ∃ rest, ((Instance.callSetter owner record.table index r v).run.run i).1 =
          .error (.runtime
            (((record.table.place f).at (before.length + 1)).text ++ ": " ++ rest)) := by
  have hsound := wellFormed_of_resolves hs
  subst hi
  obtain ⟨htable, hv⟩ := conform_after hsound hm r record hr
  have hwf := (hsound.tables record.table htable).fields f (List.mem_of_getElem? hf)
  constructor
  · rw [Instance.callSetter_succeeds_iff hr, setField_isOk_iff hf, storedForm_isOk_iff hwf hv]
  · intro type before w after ha ht hcontent hfixed hbefore hw
    obtain ⟨refusal, hrefusal, hplace⟩ := storedForm_eq_error hwf ha ht hfixed hbefore hw
    obtain ⟨rest, hrest⟩ := hplace.toLuaError
    have herror := setField_eq_error hf hrefusal
    rw [← hcontent] at herror
    refine ⟨rest, ?_⟩
    rcases Instance.callSetter_cases hr owner index v with ⟨_, j, hset, hrun, _⟩ | ⟨u, _, hset, _⟩
    · cases herror.symm.trans hset
      rw [hrun, hrest]
    · cases herror.symm.trans hset

/-- After the nodes were made, a table comes along with one item that is no byte. -/
def unfitMoves : List Move :=
  nodeMoves ++ [.other
    ((Instance.created.after nodeMoves).newTable (.ofItems [.integer 7, .integer 300])).1]

theorem unfitMoves_within : ∀ m ∈ unfitMoves, m.Within nodeSet := by
  intro m hm
  rcases List.mem_append.1 hm with hm | hm
  · exact nodeMoves_within m hm
  · rw [List.mem_singleton.1 hm]
    trivial

theorem byte_suits {names : RecordNames} {i : Int64} (hl : 0 ≤ i.toInt) (hh : i.toInt ≤ 255) :
    (Value.integer i).SuitsItem names (.scalar .uint8) :=
  .integer (.integer rfl (.integer i) hl hh)

theorem setter_succeeds_iff_node :
    TableSet.ofDeclarations nodeDeclarations = .ok nodeSet ∧ (∀ m ∈ unfitMoves, m.Within nodeSet) ∧
      (Instance.created.after unfitMoves).records.get? ⟨0⟩ = some nodeRecord ∧
      (Instance.callSetter Instance.globals nodeTable 1 ⟨0⟩ (.table ⟨6⟩)).Succeeds
        (Instance.created.after unfitMoves) ∧
      ∃ rest, ((Instance.callSetter Instance.globals nodeTable 1 ⟨0⟩ (.table ⟨7⟩)).run.run
        (Instance.created.after unfitMoves)).1 =
          .error (.runtime ((Place.mk "node_t" "xs" (some 2)).text ++ ": " ++ rest)) := by
  have haccepted : TableSet.ofDeclarations nodeDeclarations = .ok nodeSet := rfl
  have hnode : (Instance.created.after unfitMoves).records.get? ⟨0⟩ = some nodeRecord := rfl
  have hbytes : nodeRecord.table.fields[1]? = some nodeTable.fields[1] := rfl
  have hsetter := fun v =>
    setter_succeeds_iff haccepted unfitMoves_within rfl hnode hbytes Instance.globals v
  refine ⟨haccepted, unfitMoves_within, hnode, (hsetter (.table ⟨6⟩)).1.2 ?_, ?_⟩
  · refine .sequence nofun rfl nofun (fun index ha => ?_) ?_
    · cases ha
      exact ⟨_, 2, rfl, rfl, rfl⟩
    · intro v hv
      rcases List.mem_cons.1 hv with rfl | hv
      · exact byte_suits (by decide) (by decide)
      · rw [List.mem_singleton.1 hv]
        exact byte_suits (by decide) (by decide)
  · refine (hsetter (.table ⟨7⟩)).2 (.scalar .uint8) [.integer 7] (.integer 300) [] nofun rfl rfl
      nofun ?_ ?_
    · intro v hv
      rw [List.mem_singleton.1 hv]
      exact byte_suits (by decide) (by decide)
    · intro h
      cases h with
      | number hs => exact absurd hs (by decide)
      | integer h =>
        cases h with
        | integer hb hn hl hh =>
          cases hb
          cases hn
          exact absurd hh (by decide)

end RecordTables
