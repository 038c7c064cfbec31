import RecordTables.Proofs.Instance.Accepting
import RecordTables.Proofs.Record.Commuting

/-!
Setters that can change places.

Two setters of one record can be called in either order if neither field is the count or the
selector of the other, and setters of two records always can: `setters_commute`.  Each call ends as
it would in the other order, whether or not the calls succeed, and the records hold the same at the
end.
-/

namespace RecordTables

/-- Two actions can be run in either order: each of them gives the same before the other and after
it, and the records hold the same at the end. -/
structure Action.Commute (x y : Action Value) (i : Instance) : Prop where
  left : (x.run.run (y.run.run i).2).1 = (x.run.run i).1
  right : (y.run.run (x.run.run i).2).1 = (y.run.run i).1
  records : (y.run.run (x.run.run i).2).2.records.Alike (x.run.run (y.run.run i).2).2.records

theorem Record.Alike.refl (record : Record) : record.Alike record := ⟨rfl, fun _ _ => rfl⟩

theorem Records.Alike.refl (rs : Records) : rs.Alike rs := by
  intro r
  cases rs.get? r with
  | none => exact .none
  | some record => exact .some (.refl record)

theorem Records.Alike.of_get?_eq {rs rs' : Records} (h : ∀ r, rs'.get? r = rs.get? r) :
    rs.Alike rs' := by
  intro r
  rw [h r]
  exact Records.Alike.refl rs r

namespace Instance

section

variable {i j : Instance} {r r' : RecordRef} {record record' : Record}

/-- An instance after the setter of a field of a record was called with a content. -/
structure AfterSetter (i : Instance) (r : RecordRef) (record : Record) (index : Nat) (c : Content)
    (j : Instance) : Prop where
  content : ∀ v, j.content v = i.content v
  names : j.records.names = i.records.names
  self : j.records.get? r = some { record with
    values := setOrKept i.records.names record.table index c record.values }
  others : ∀ other, other ≠ r → j.records.get? other = i.records.get? other

theorem afterSetter_callSetter (hr : i.records.get? r = some record) (owner : TableRef)
    (index : Nat) (v : Value) :
    i.AfterSetter r record index (i.content v)
      ((callSetter owner record.table index r v).run.run i).2 := by
  have hcontent : ∀ w, ((callSetter owner record.table index r v).run.run i).2.content w =
      i.content w := by
    obtain ⟨hkeeps, hsize⟩ := keeps_setField i record.table index r v
    exact hkeeps.content_eq hsize
  rcases callSetter_cases hr owner index v with
    ⟨refusal, j, hset, hrun, hj⟩ | ⟨u, j, hset, hrun, hj⟩
  · have hkept : setOrKept i.records.names record.table index (i.content v) record.values =
        record.values := by
      unfold setOrKept
      rw [hset]
    rw [hrun] at hcontent ⊢
    refine ⟨hcontent, congrArg Records.names hj, ?_, fun other _ => ?_⟩
    · rw [hkept, hj]
      exact hr
    · rw [hj]
  · have hput : setOrKept i.records.names record.table index (i.content v) record.values =
        u.values := by
      unfold setOrKept
      rw [hset]
    rw [hrun] at hcontent ⊢
    refine ⟨hcontent, ?_, ?_, fun other hother => ?_⟩
    · rw [hj]
      exact Records.names_put hr rfl
    · rw [hput, hj]
      exact Records.get?_put_self _ (Records.index_lt_of_get? hr)
    · rw [hj]
      exact Records.get?_put_of_ne _ _ hother

/-- Setters that refuse alike end alike. -/
theorem outcome_callSetter_congr (hr : i.records.get? r = some record)
    (hr' : j.records.get? r = some record') (htable : record'.table = record.table)
    (owner : TableRef) {index : Nat} (v : Value)
    (h : (RecordTables.setField j.records.names record.table index record'.values
        (j.content v)).map (fun _ => ()) =
      (RecordTables.setField i.records.names record.table index record.values
        (i.content v)).map fun _ => ()) :
    ((callSetter owner record.table index r v).run.run j).1 =
      ((callSetter owner record.table index r v).run.run i).1 := by
  have hafter := callSetter_cases hr' owner index v
  rw [htable] at hafter
  rcases callSetter_cases hr owner index v with ⟨e, _, hset, hrun, _⟩ | ⟨u, _, hset, hrun, _⟩
  · rcases hafter with ⟨e', _, hset', hrun', _⟩ | ⟨u', _, hset', _⟩
    · rw [hset, hset'] at h
      cases h
      rw [hrun, hrun']
    · rw [hset, hset'] at h
      cases h
  · rcases hafter with ⟨e', _, hset', _⟩ | ⟨u', _, hset', hrun', _⟩
    · rw [hset, hset'] at h
      cases h
    · rw [hrun, hrun']

/-- A setter that was called is no obstacle to one that does not depend on its field. -/
theorem outcome_callSetter_after {s : TableSet} (hs : s.WellFormed)
    (hconform : i.records.Conform s) (hr : i.records.get? r = some record)
    (hr' : i.records.get? r' = some record') {index index' : Nat} {f f' : Field}
    (hf : record.table.fields[index]? = some f) (hf' : record'.table.fields[index']? = some f')
    {c : Content} (hj : i.AfterSetter r record index c j)
    (hd : r = r' → ¬f'.DependsOn index) (owner : TableRef) (v : Value) :
    ((callSetter owner record'.table index' r' v).run.run j).1 =
      ((callSetter owner record'.table index' r' v).run.run i).1 := by
  by_cases hsame : r' = r
  · subst hsame
    cases hr.symm.trans hr'
    obtain ⟨htable, hv⟩ := hconform r' record hr
    refine outcome_callSetter_congr hr hj.self rfl owner v ?_
    rw [hj.names, hj.content, setField_map_unit hf', setField_map_unit hf']
    exact congrArg _ (storedForm_setOrKept (hs.tables record.table htable) hv hf
      (List.mem_of_getElem? hf') (hd rfl) c (i.content v))
  · refine outcome_callSetter_congr hr' ((hj.others r' hsame).trans hr') rfl owner v ?_
    rw [hj.names, hj.content]

section

variable {j₁ j₂ k k' : Instance} {index index' : Nat} {c c' : Content}
  (hj₁ : i.AfterSetter r record index c j₁)

include hj₁

/-- Two fields of a record were set in both orders. -/
theorem AfterSetter.alike {s : TableSet} (hs : s.WellFormed) (hconform : i.records.Conform s)
    (hr : i.records.get? r = some record) {f f' : Field}
    (hf : record.table.fields[index]? = some f) (hf' : record.table.fields[index']? = some f')
    (hne : index ≠ index') (hff' : ¬f.DependsOn index') (hf'f : ¬f'.DependsOn index)
    (hj₂ : i.AfterSetter r record index' c' j₂)
    (hk : j₁.AfterSetter r { record with
      values := setOrKept i.records.names record.table index c record.values } index' c' k)
    (hk' : j₂.AfterSetter r { record with
      values := setOrKept i.records.names record.table index' c' record.values } index c k') :
    k.records.Alike k'.records := by
  obtain ⟨htable, hv⟩ := hconform r record hr
  intro other
  by_cases hother : other = r
  · subst hother
    rw [hk.self, hk'.self]
    refine .some ⟨rfl, fun h hh => ?_⟩
    rw [hj₁.names, hj₂.names]
    exact (get_setOrKept_comm (hs.tables record.table htable) hv hf hf' hne hff' hf'f hh).symm
  · rw [hk.others other hother, hk'.others other hother, hj₁.others other hother,
      hj₂.others other hother]
    exact Records.Alike.refl _ other

/-- Fields of two records were set in both orders. -/
theorem AfterSetter.alike_of_ne (hne : r ≠ r')
    (hj₂ : i.AfterSetter r' record' index' c' j₂) (hk : j₁.AfterSetter r' record' index' c' k)
    (hk' : j₂.AfterSetter r record index c k') : k.records.Alike k'.records := by
  refine Records.Alike.of_get?_eq fun other => ?_
  by_cases hother : other = r
  · subst hother
    rw [hk'.self, hk.others other hne, hj₁.self, hj₂.names]
  by_cases hother' : other = r'
  · subst hother'
    rw [hk.self, hk'.others other hother, hj₂.self, hj₁.names]
  · rw [hk.others other hother', hk'.others other hother, hj₁.others other hother,
      hj₂.others other hother']

end

end
end Instance

/-- Setters of two records commute, and so do the setters of two fields of a record of which neither
is the count or the selector of the other. -/
theorem setters_commute {d : Declarations} {s : TableSet}
    (hs : TableSet.ofDeclarations d = .ok s) {moves : List Move} (hm : ∀ m ∈ moves, m.Within s)
    {i : Instance} (hi : i = Instance.created.after moves) {r r' : RecordRef}
    {record record' : Record} (hr : i.records.get? r = some record)
    (hr' : i.records.get? r' = some record') {index index' : Nat} {f f' : Field}
    (hf : record.table.fields[index]? = some f) (hf' : record'.table.fields[index']? = some f')
    (hapart : r = r' → index ≠ index' ∧ ¬f.DependsOn index' ∧ ¬f'.DependsOn index)
    (owner owner' : TableRef) (v v' : Value) :
    Action.Commute (Instance.callSetter owner record.table index r v)
      (Instance.callSetter owner' record'.table index' r' v') i := by
  have hsound := wellFormed_of_resolves hs
  subst hi
  have hconform := conform_after hsound hm
  have hfirst := Instance.afterSetter_callSetter hr owner index v
  have hsecond := Instance.afterSetter_callSetter hr' owner' index' v'
  refine ⟨?_, ?_, ?_⟩
  · exact Instance.outcome_callSetter_after hsound hconform hr' hr hf' hf hsecond
      (fun heq => (hapart heq.symm).2.1) owner v
  · exact Instance.outcome_callSetter_after hsound hconform hr hr' hf hf' hfirst
      (fun heq => (hapart heq).2.2) owner' v'
  · by_cases hsame : r = r'
    · subst hsame
      cases hr.symm.trans hr'
      obtain ⟨hne, hff', hf'f⟩ := hapart rfl
      refine hfirst.alike hsound hconform hr hf hf' hne hff' hf'f hsecond ?_ ?_
      · rw [← hfirst.content v']
        exact Instance.afterSetter_callSetter hfirst.self owner' index' v'
      · rw [← hsecond.content v]
        exact Instance.afterSetter_callSetter hsecond.self owner index v
    · refine hfirst.alike_of_ne hsame hsecond ?_ ?_
      · have hother := (hfirst.others r' (Ne.symm hsame)).trans hr'
        rw [← hfirst.content v']
        exact Instance.afterSetter_callSetter hother owner' index' v'
      · have hother := (hsecond.others r hsame).trans hr
        rw [← hsecond.content v]
        exact Instance.afterSetter_callSetter hother owner index v

/-- The setter of the bytes of a node, and the one of its third field, which is refused. -/
theorem setters_commute_node :
    TableSet.ofDeclarations nodeDeclarations = .ok nodeSet ∧ (∀ m ∈ nodeMoves, m.Within nodeSet) ∧
      (Instance.created.after nodeMoves).records.get? ⟨0⟩ = some nodeRecord ∧
      (1 ≠ 2 ∧ ¬nodeTable.fields[1].DependsOn 2 ∧ ¬nodeTable.fields[2].DependsOn 1) ∧
      Action.Commute (Instance.callSetter Instance.globals nodeTable 1 ⟨0⟩ (.table ⟨6⟩))
        (Instance.callSetter Instance.globals nodeTable 2 ⟨0⟩ (.integer 5))
        (Instance.created.after nodeMoves) := by
  have haccepted : TableSet.ofDeclarations nodeDeclarations = .ok nodeSet := rfl
  have hnode : (Instance.created.after nodeMoves).records.get? ⟨0⟩ = some nodeRecord := rfl
  have hbytes : nodeRecord.table.fields[1]? = some nodeTable.fields[1] := rfl
  have hchosen : nodeRecord.table.fields[2]? = some nodeTable.fields[2] := rfl
  have hapart : 1 ≠ 2 ∧ ¬nodeTable.fields[1].DependsOn 2 ∧ ¬nodeTable.fields[2].DependsOn 1 := by
    refine ⟨by decide, fun hd => ?_, fun hd => ?_⟩
    · rcases hd with ha | ⟨_, hc, _⟩
      · cases ha
      · cases hc
    · rcases hd with ha | ⟨_, hc, hindex⟩
      · cases ha
      · cases hc
        cases hindex
  exact ⟨haccepted, nodeMoves_within, hnode, hapart, setters_commute haccepted nodeMoves_within rfl
    hnode hnode hbytes hchosen (fun _ => hapart) Instance.globals Instance.globals _ _⟩

end RecordTables
