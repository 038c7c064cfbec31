import RecordTables.Proofs.Instance.Agreement
import RecordTables.Proofs.Instance.Counts
import RecordTables.Proofs.Record.Deriving

/-!
Counts that are left out.

A count that is not given to the constructor is the length of the first sequence that it counts.
`counts_left_out` says that giving this length comes to the same, and that the lengths of all
sequences given are those in the counts, whichever of them a count was taken from.
-/

namespace RecordTables
namespace Instance

/-- An argument or, for a count that is left out, the length that stands for it. -/
def completedValue (i : Instance) (t : Table) (args : List Value) (index : Nat) : Value :=
  match args.getD index .nil, leadingLength? t (args.map i.content) index with
  | .nil, some length => .integer (Int64.ofNat length)
  | arg, _ => arg

/-- Arguments with the counts that are left out. -/
def completed (i : Instance) (t : Table) (args : List Value) : List Value :=
  (List.range (max args.length t.fields.length)).map (i.completedValue t args)

/-- What a new record holds for its arguments: sequences of the lengths that their counts say, and
conditional values that suit the cases of its selectors. -/
structure HoldsGiven (i : Instance) (t : Table) (args : List Value) (values : FieldValues) :
    Prop where
  lengths : ∀ index f count g ref, t.fields[index]? = some f → f.arity = .counted count →
    t.fields[count]? = some g → args.getD index .nil = .table ref →
    ∃ items n, values.get f.name = .sequence items ∧ items.length = (i.table ref).length ∧
      values.get g.name = .single (.integer n) ∧ n.toInt = items.length
  chosen : ∀ index f, t.fields[index]? = some f → f.luaType = .conditional →
    args.getD index .nil ≠ .nil →
    f.Accepts i.records.names t values (i.content (args.getD index .nil))

section

variable {t : Table} {values : FieldValues}

theorem content_completedValue (i : Instance) (t : Table) (args : List Value) (index : Nat) :
    i.content (i.completedValue t args index) =
      completedArgument t (args.map i.content) index := by
  unfold completedValue completedArgument
  rw [i.argument_map_content]
  by_cases harg : args.getD index .nil = .nil
  · rw [harg, if_pos (show i.content .nil = .nil from rfl)]
    cases leadingLength? t (args.map i.content) index <;> rfl
  · rw [if_neg (mt (i.content_eq_nil_iff _).1 harg)]
    generalize args.getD index .nil = arg at harg ⊢
    cases arg with
    | nil => exact absurd rfl harg
    | _ => rfl

theorem completes_completed (i : Instance) (t : Table) (args : List Value) :
    Completes t (args.map i.content) ((i.completed t args).map i.content) := by
  intro index hindex
  have hrange : index < max args.length t.fields.length :=
    Nat.lt_of_lt_of_le hindex (Nat.le_max_right _ _)
  rw [i.argument_map_content, ← content_completedValue]
  unfold completed
  rw [List.getD_eq_getElem?_getD, List.getElem?_map, List.getElem?_range hrange]
  rfl

theorem countable_content (i : Instance) (args : List Value) : Countable (args.map i.content) := by
  intro items hitems
  obtain ⟨v, _, hv⟩ := List.mem_map.1 hitems
  exact toInt_ofNat_length (i.content_short v items hv)

theorem length_content_table (i : Instance) (ref : TableRef) :
    ∃ given, i.content (.table ref) = .sequence given ∧ given.length = (i.table ref).length := by
  refine ⟨(i.table ref).toList, rfl, ?_⟩
  unfold LuaTable.toList
  rw [List.length_map, List.length_range]

theorem holdsGiven_of_construct (ht : t.WellFormed) (i : Instance) (args : List Value)
    (h : construct i.records.names t (args.map i.content) = .ok values) :
    HoldsGiven i t args values := by
  have hargs := i.completes_completed t args
  have hsettle := settle_of_construct_completed ht (i.countable_content args) hargs h
  have hconform := ((construct_yields i.records.names ht _).of_ok h).1
  constructor
  · intro index f count g ref hf ha hg harg
    have hwf := ht.fields f (List.mem_of_getElem? hf)
    have hat := hwf.integerAt ha hg
    obtain ⟨given, hgiven, hlength⟩ := i.length_content_table ref
    have hinitial := (hsettle index f hf).initialContent_eq (hwf.plain_of_counted ha)
    rw [hargs.argument_eq_of_luaType ht hf (hwf.ne_integer_of_counted ha),
      i.argument_map_content, harg, hgiven] at hinitial
    rcases counted_of_initialContent hwf ha hinitial with ⟨hnil, _⟩ | ⟨_, items, heq, hitems, hsame⟩
    · cases hnil
    · cases heq
      obtain ⟨n, hn, hcount⟩ := hsettle.count ht hf ha hat hitems
      exact ⟨items, n, hitems, hsame.trans hlength, hn, hcount⟩
  · intro index f hf hl harg
    have hwf := ht.fields f (List.mem_of_getElem? hf)
    have hsame : argument ((i.completed t args).map i.content) index =
        i.content (args.getD index .nil) := by
      rw [hargs.argument_eq_of_luaType ht hf (by rw [hl]; decide), i.argument_map_content]
    have hne : i.content (args.getD index .nil) ≠ .nil := mt (i.content_eq_nil_iff _).1 harg
    have hstored := (hsettle index f hf).storedForm_eq (hsame.symm ▸ hne)
    rw [hsame] at hstored
    exact (storedForm_isOk_iff hwf hconform _).1 ⟨_, hstored⟩

end
end Instance

/-- Leaving a count out is the same as giving the length of the first sequence that it counts. -/
theorem counts_left_out {d : Declarations} {s : TableSet}
    (hs : TableSet.ofDeclarations d = .ok s) {t : Table} (ht : t ∈ s.tables) (i : Instance)
    (owner : TableRef) (args : List Value) :
    ((Instance.callFunction (.accessor owner t .create) args).Succeeds i ↔
        (Instance.callFunction (.accessor owner t .create) (i.completed t args)).Succeeds i) ∧
      (∀ v j v' j', (Instance.callFunction (.accessor owner t .create) args).run.run i =
          (.ok v, j) →
        (Instance.callFunction (.accessor owner t .create) (i.completed t args)).run.run i =
          (.ok v', j') →
        ∃ r r', v = .record r ∧ v' = .record r' ∧ ∀ index < t.fields.length, ∃ c,
          j.records.getField t index r = .ok c ∧ j'.records.getField t index r' = .ok c) ∧
      ∀ v j, (Instance.callFunction (.accessor owner t .create) args).run.run i = (.ok v, j) →
        ∃ r values, v = .record r ∧ j.records.get? r = some ⟨t, values⟩ ∧
          Instance.HoldsGiven i t args values := by
  have hwf := (wellFormed_of_resolves hs).tables t ht
  obtain ⟨hiff, hagree⟩ := construct_completes i.records.names hwf (i.countable_content args)
    (i.completes_completed t args)
  refine ⟨?_, fun v j v' j' h h' => ?_, fun v j h => ?_⟩
  · exact Instance.createRecord_succeeds_iff.trans
      (hiff.trans Instance.createRecord_succeeds_iff.symm)
  · obtain ⟨values, hvalues⟩ := Instance.construct_of_createRecord h
    obtain ⟨values', hvalues'⟩ := Instance.construct_of_createRecord h'
    obtain ⟨r, k, hrun, hk, _⟩ := Instance.building_createRecord args hvalues
    obtain ⟨r', k', hrun', hk', _⟩ := Instance.building_createRecord _ hvalues'
    cases h.symm.trans hrun
    cases h'.symm.trans hrun'
    refine ⟨r, r', rfl, rfl, fun index hindex => ?_⟩
    have hf := List.getElem?_eq_getElem hindex
    have hget := hagree values values' hvalues hvalues' _ (List.getElem_mem hindex)
    exact ⟨_, hk.getField_eq hf, hget ▸ hk'.getField_eq hf⟩
  · obtain ⟨values, hvalues⟩ := Instance.construct_of_createRecord h
    obtain ⟨r, k, hrun, hk, _⟩ := Instance.building_createRecord args hvalues
    cases h.symm.trans hrun
    exact ⟨r, values, rfl, hk.holds, i.holdsGiven_of_construct hwf args hvalues⟩

/-- Arguments for a node of two bytes and a node, without the number of bytes, which chooses between
a text and a node. -/
def bytesOnly : List Value := [.nil, .table ⟨6⟩, .record ⟨0⟩]

theorem counts_left_out_node :
    TableSet.ofDeclarations nodeDeclarations = .ok nodeSet ∧ nodeTable ∈ nodeSet.tables ∧
      nodeStart.completed nodeTable bytesOnly = [.integer 2, .table ⟨6⟩, .record ⟨0⟩] ∧
      (Instance.callFunction (.accessor Instance.globals nodeTable .create)
        [.integer 2, .table ⟨6⟩, .record ⟨0⟩]).Succeeds nodeStart ∧
      ∃ r values j, (Instance.callFunction (.accessor Instance.globals nodeTable .create)
          bytesOnly).run.run nodeStart = (.ok (.record r), j) ∧
        j.records.get? r = some ⟨nodeTable, values⟩ ∧
        Instance.HoldsGiven nodeStart nodeTable bytesOnly values := by
  have haccepted : TableSet.ofDeclarations nodeDeclarations = .ok nodeSet := rfl
  have hcompleted : nodeStart.completed nodeTable bytesOnly =
      [.integer 2, .table ⟨6⟩, .record ⟨0⟩] := rfl
  have hcreate : (Instance.callFunction (.accessor Instance.globals nodeTable .create)
      bytesOnly).Succeeds nodeStart := ⟨.record ⟨1⟩, _, rfl⟩
  obtain ⟨hiff, _, hholds⟩ :=
    counts_left_out haccepted List.mem_cons_self nodeStart Instance.globals bytesOnly
  refine ⟨haccepted, List.mem_cons_self, hcompleted, ?_, ?_⟩
  · rw [← hcompleted]
    exact hiff.1 hcreate
  · obtain ⟨v, j, hrun⟩ := hcreate
    obtain ⟨r, values, rfl, hr, hgiven⟩ := hholds v j hrun
    exact ⟨r, values, j, hrun, hr, hgiven⟩

end RecordTables
