import RecordTables.Proofs.Instance.Run
import RecordTables.Proofs.Schema.Description

/-!
Record functions never blame the table.

A refusal always has its reason in the arguments.  The refusals that complete the record functions,
for fields without a type, a condition, a case or a place in their table, do not occur in any state
that a run reaches, whatever is asked of the records there.
-/

namespace RecordTables

/-- The arguments are to blame for every refusal. -/
def NeverBlames {α : Type} (x : Except Refusal α) : Prop :=
  ∀ refusal, x = .error refusal → refusal.blamesTable = false

theorem Yields.neverBlames {α : Type} {P : α → Prop} {x : Except Refusal α} (h : Yields P x) :
    NeverBlames x := fun _ hx => h.of_error hx

/-- Nothing that is done with records of a table blames it.  When a selector changes, each value that
it rules is checked for the case that it chooses then, and what that check ends with is seen by
nobody, so it is listed on its own. -/
structure Records.NeverBlame (rs : Records) (t : Table) : Prop where
  create : ∀ args, NeverBlames (rs.create t args)
  getField : ∀ index < t.fields.length, ∀ r, NeverBlames (rs.getField t index r)
  setField : ∀ index < t.fields.length, ∀ r c, NeverBlames (rs.setField t index r c)
  recheck : ∀ f ∈ t.fields, ∀ condition, f.condition = some condition →
    ∀ selector choice, condition.case? selector = some choice →
      ∀ c, NeverBlames (checkSingle rs.names (t.place f) choice.luaType choice.type c)
  render : ∀ r, NeverBlames (rs.render r)
  describe : ∀ f ∈ t.fields, f.describe? t = some (f.describe t)

theorem Records.render_neverBlames (rs : Records) (r : RecordRef) : NeverBlames (rs.render r) := by
  intro refusal h
  unfold Records.render at h
  split at h
  · cases h
    rfl
  · cases h

theorem Records.Conform.neverBlame {s : TableSet} (hs : s.WellFormed) {rs : Records}
    (h : rs.Conform s) {t : Table} (ht : t ∈ s.tables) : rs.NeverBlame t := by
  have hwf := hs.tables t ht
  constructor
  · intro args
    exact (Records.create_yields hs ht args).neverBlames
  · intro index hindex r
    exact (Records.getField_yields hs h ht (List.getElem?_eq_getElem hindex) r).neverBlames
  · intro index hindex r c
    exact (Records.setField_yields hs h ht (List.getElem?_eq_getElem hindex) r c).neverBlames
  · intro f hf condition hc selector choice hcase c
    obtain ⟨_, hcases⟩ := (hwf.fields f hf).condition hc
    have hr := hcases choice (List.mem_of_find?_eq_some hcase)
    exact (checkSingle_yields rs.names (t.place f) hr c).neverBlames
  · exact rs.render_neverBlames
  · intro f hf
    exact (hwf.fields f hf).describe?_eq

/-- No run of a program reaches a state in which a record function blames its table. -/
theorem records_neverBlame {d : Declarations} {s : TableSet}
    (hs : TableSet.ofDeclarations d = .ok s) {moves : List Move} (hm : ∀ m ∈ moves, m.Within s)
    {t : Table} (ht : t ∈ s.tables) : (Instance.created.after moves).records.NeverBlame t :=
  (conform_after (wellFormed_of_resolves hs) hm).neverBlame (wellFormed_of_resolves hs) ht

theorem records_neverBlame_node :
    TableSet.ofDeclarations nodeDeclarations = .ok nodeSet ∧ (∀ m ∈ nodeMoves, m.Within nodeSet) ∧
      nodeTable ∈ nodeSet.tables ∧ (Instance.created.after nodeMoves).records.NeverBlame nodeTable :=
  have haccepted : TableSet.ofDeclarations nodeDeclarations = .ok nodeSet := rfl
  ⟨haccepted, nodeMoves_within, List.mem_cons_self,
    records_neverBlame haccepted nodeMoves_within List.mem_cons_self⟩

end RecordTables
