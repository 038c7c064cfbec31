import RecordTables.Instance.Module
import RecordTables.Proofs.Outcome

/-!
What the functions of a class do to records.

The functions work on an instance as a whole, but of its records they change only what the record
functions of the same name change, and nothing at all when they refuse.  The lemmas about `run` take
an action apart at its first step.
-/

namespace RecordTables

namespace Action

theorem run_getThe (i : Instance) : (getThe Instance : Action Instance).run.run i = (.ok i, i) :=
  rfl

theorem run_change (g : Instance → Instance) (i : Instance) :
    (change g).run.run i = (.ok (), g i) := rfl

theorem run_ofRefusal {α : Type} (o : Except Refusal α) (i : Instance) :
    (ofRefusal o).run.run i =
      (match o with | .ok a => .ok a | .error refusal => .error refusal.toLuaError, i) := by
  cases o <;> rfl

end Action

namespace Records

variable {rs : Records} {t : Table} {r : RecordRef}

theorem receiver_eq_ok_iff {record : Record} :
    rs.receiver t r = .ok record ↔ rs.get? r = some record ∧ record.table.name = t.name := by
  unfold receiver
  cases rs.get? r with
  | none => exact ⟨nofun, fun h => nomatch h.1⟩
  | some found =>
    by_cases hname : found.table.name = t.name
    · simp only [if_pos hname, Except.ok.injEq, Option.some.injEq]
      exact ⟨fun h => ⟨h, h ▸ hname⟩, And.left⟩
    · simp only [if_neg hname, Option.some.injEq]
      exact ⟨nofun, fun h => absurd (h.1 ▸ h.2) hname⟩

theorem getField_of_receiver_error {refusal : Refusal} (h : rs.receiver t r = .error refusal)
    (index : Nat) : rs.getField t index r = .error refusal := by
  unfold getField
  rw [h]
  rfl

theorem setField_of_receiver_error {refusal : Refusal} (h : rs.receiver t r = .error refusal)
    (index : Nat) (c : Content) : rs.setField t index r c = .error refusal := by
  unfold setField
  rw [h]
  rfl

end Records

namespace Instance

/-! ## The record functions -/

theorem records_measured (i : Instance) (v : Value) : (i.measured v).records = i.records := by
  unfold measured
  split <;> rfl

theorem records_measureFor (fields : List Field) (args : List Value) (i : Instance) :
    (measureFor fields args i).records = i.records := by
  unfold measureFor
  generalize (fields.zip args).filter (fun p => p.1.arity.isSequence) = given
  induction given generalizing i with
  | nil => rfl
  | cons p given ih =>
    rw [List.foldl_cons, ih, records_measured]

theorem records_noteCleared (t : Table) (cleared : List String) (i : Instance) :
    (cleared.foldl (noteCleared t) i).records = i.records := by
  induction cleared generalizing i with
  | nil => rfl
  | cons name cleared ih =>
    rw [List.foldl_cons, ih]
    rfl

/-- A record is made or refused as its record function says. -/
theorem run_createRecord (i : Instance) (t : Table) (args : List Value) :
    (createRecord t args).run.run i =
      match i.records.create t (args.map i.content) with
      | .error refusal => (.error refusal.toLuaError,
          measureFor (reached i.records.names t t.fields (args.map i.content)) args i)
      | .ok out => (.ok (.record out.2),
          { measureFor (reached i.records.names t t.fields (args.map i.content)) args i with
            records := out.1 }) := by
  unfold createRecord
  rw [run_bind_ok (Action.run_getThe i)]
  simp only
  rw [run_bind_ok (Action.run_change _ i)]
  have hrun := Action.run_ofRefusal (i.records.create t (args.map i.content))
    (measureFor (reached i.records.names t t.fields (args.map i.content)) args i)
  cases h : i.records.create t (args.map i.content) with
  | error refusal =>
    rw [h] at hrun
    exact run_bind_error hrun
  | ok out =>
    rw [h] at hrun
    rw [run_bind_ok hrun]
    rfl

/-- Nothing is done to a record that the function may not work on; to any other, what the record
function says. -/
theorem run_setField (i : Instance) (t : Table) (index : Nat) (r : RecordRef) (v : Value) :
    (setField t index r v).run.run i =
      match i.records.receiver t r with
      | .error refusal => (.error refusal.toLuaError, i)
      | .ok _ =>
        match i.records.setField t index r (i.content v) with
        | .error refusal => (.error refusal.toLuaError, measureFor (t.fields.drop index) [v] i)
        | .ok out => (.ok (.record r), out.2.foldl (noteCleared t)
            { measureFor (t.fields.drop index) [v] i with records := out.1 }) := by
  unfold setField
  rw [run_bind_ok (Action.run_getThe i)]
  have hreceiver := Action.run_ofRefusal (i.records.receiver t r) i
  cases hr : i.records.receiver t r with
  | error refusal =>
    rw [hr] at hreceiver
    exact run_bind_error hreceiver
  | ok record =>
    rw [hr] at hreceiver
    rw [run_bind_ok hreceiver, run_bind_ok (Action.run_change _ i)]
    have hrun := Action.run_ofRefusal (i.records.setField t index r (i.content v))
      (measureFor (t.fields.drop index) [v] i)
    cases h : i.records.setField t index r (i.content v) with
    | error refusal =>
      rw [h] at hrun
      exact run_bind_error hrun
    | ok out =>
      rw [h] at hrun
      rw [run_bind_ok hrun]
      rfl

/-- A value is given as it is, and a sequence as a table of its own. -/
theorem run_getField (i : Instance) (t : Table) (index : Nat) (r : RecordRef) :
    (getField t index r).run.run i =
      match i.records.getField t index r with
      | .error refusal => (.error refusal.toLuaError, i)
      | .ok (.single v) => (.ok v, i)
      | .ok (.sequence items) =>
        (.ok (.table (i.newTable (.grown items)).2), (i.newTable (.grown items)).1) := by
  unfold getField
  rw [run_bind_ok (Action.run_getThe i)]
  have hrun := Action.run_ofRefusal (i.records.getField t index r) i
  cases h : i.records.getField t index r with
  | error refusal =>
    rw [h] at hrun
    exact run_bind_error hrun
  | ok c =>
    rw [h] at hrun
    rw [run_bind_ok hrun]
    cases c <;> rfl

theorem outcome_createRecord (i : Instance) (t : Table) (args : List Value) :
    ((createRecord t args).run.run i).1 =
      match i.records.create t (args.map i.content) with
      | .ok out => .ok (.record out.2)
      | .error refusal => .error refusal.toLuaError := by
  rw [run_createRecord]
  cases i.records.create t (args.map i.content) <;> rfl

theorem outcome_setField (i : Instance) (t : Table) (index : Nat) (r : RecordRef) (v : Value) :
    ((setField t index r v).run.run i).1 =
      match i.records.setField t index r (i.content v) with
      | .ok _ => .ok (.record r)
      | .error refusal => .error refusal.toLuaError := by
  rw [run_setField]
  cases hr : i.records.receiver t r with
  | error refusal => rw [Records.setField_of_receiver_error hr]
  | ok record => cases i.records.setField t index r (i.content v) <;> rfl

theorem records_createRecord (i : Instance) (t : Table) (args : List Value) :
    ((createRecord t args).run.run i).2.records =
      match i.records.create t (args.map i.content) with
      | .ok out => out.1
      | .error _ => i.records := by
  rw [run_createRecord]
  cases i.records.create t (args.map i.content) with
  | error refusal => exact records_measureFor _ _ _
  | ok out => rfl

theorem records_setField (i : Instance) (t : Table) (index : Nat) (r : RecordRef) (v : Value) :
    ((setField t index r v).run.run i).2.records =
      match i.records.setField t index r (i.content v) with
      | .ok out => out.1
      | .error _ => i.records := by
  rw [run_setField]
  cases hr : i.records.receiver t r with
  | error refusal => rw [Records.setField_of_receiver_error hr]
  | ok record =>
    simp only
    cases i.records.setField t index r (i.content v) with
    | error refusal => exact records_measureFor _ _ _
    | ok out => exact records_noteCleared t out.2 _

theorem records_getField (i : Instance) (t : Table) (index : Nat) (r : RecordRef) :
    ((getField t index r).run.run i).2.records = i.records := by
  rw [run_getField]
  cases i.records.getField t index r with
  | error refusal => rfl
  | ok c => cases c <;> rfl

theorem run_refuseDestroyed (v : Value) (i : Instance) :
    (Action.refuseDestroyed v).run.run i =
      (if i.isDestroyed v then .error .destroyedUserData else .ok (), i) := by
  unfold Action.refuseDestroyed
  rw [run_bind_ok (Action.run_getThe i)]
  by_cases hd : i.isDestroyed v = true
  · rw [if_pos hd, if_pos hd]
    rfl
  · rw [if_neg hd, if_neg hd]
    rfl

/-- The receiver of a getter or a setter is a record, or there is none and nothing is done. -/
theorem run_receiver (args : List Value) (i : Instance) :
    (∃ r, args.headD .nil = .record r ∧ (receiver args).run.run i = (.ok r, i)) ∨
      (∀ r, args.headD .nil ≠ .record r) ∧ ∃ e, (receiver args).run.run i = (.error e, i) := by
  unfold receiver
  cases h : args.headD .nil with
  | record r => exact Or.inl ⟨r, rfl, rfl⟩
  | userData n =>
    refine Or.inr ⟨nofun, ?_⟩
    have hrun := run_refuseDestroyed (.userData n) i
    simp only
    by_cases hd : i.isDestroyed (.userData n) = true
    · rw [if_pos hd] at hrun
      exact ⟨_, run_bind_error hrun⟩
    · rw [if_neg hd] at hrun
      exact ⟨.wrongUserData, run_bind_ok hrun⟩
  | _ => exact Or.inr ⟨nofun, _, rfl⟩

/-- What holds before a getter or a setter, and after it has worked on any record, holds after it. -/
theorem receiver_bind {α : Type} {P : Instance → Prop} {i : Instance} {f : RecordRef → Action α}
    (args : List Value) (hi : P i) (hf : ∀ r, P ((f r).run.run i).2) :
    P ((receiver args >>= f).run.run i).2 := by
  rcases run_receiver args i with ⟨r, _, hrun⟩ | ⟨_, e, hrun⟩
  · rw [run_bind_ok hrun]
    exact hf r
  · rw [run_bind_error hrun]
    exact hi

end Instance
end RecordTables
