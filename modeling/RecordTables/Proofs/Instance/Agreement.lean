import RecordTables.Proofs.Instance.Frame
import RecordTables.Proofs.Instance.Run
import RecordTables.Proofs.Record.Passes
import RecordTables.Proofs.Record.Setters

/-!
The constructor of a class agrees with its setters.

A record can be made from its arguments at once, or made without arguments and then set field by
field, with counts and selectors before the fields that depend on them.  Both ways accept the same
arguments and end with the same contents, since both end with contents that settle the arguments.
-/

namespace RecordTables

/-! ## Contents -/

section

variable {names names' : RecordNames} {t : Table} {args : List Content} {first : FieldValues}
  {order : List Nat}

theorem construct_agrees_setEach (ht : t.WellFormed) (hgiven : CountsGiven t args)
    (hsame : ∀ c ∈ args, ∀ r, c.Mentions r → names r = names' r)
    (hfirst : ∀ f ∈ t.fields, first.get f.name = f.default) (ho : InTurn t args order)
    (hall : ∀ index < t.fields.length, argument args index ≠ .nil → index ∈ order) :
    ((∃ out, construct names t args = .ok out) ↔
        ∃ out, setEach names' t args order first = .ok out) ∧
      ∀ out out', construct names t args = .ok out →
        setEach names' t args order first = .ok out' →
          ∀ f ∈ t.fields, out.get f.name = out'.get f.name := by
  obtain ⟨hconstruct, hmade⟩ := construct_settles names ht hgiven
  obtain ⟨hset, hdone⟩ := setEach_settles names' ht hfirst ho hall
  have hback : ∀ c ∈ args, ∀ r, c.Mentions r → names' r = names r :=
    fun c hc r hr => (hsame c hc r hr).symm
  constructor
  · rw [hconstruct, hset]
    constructor
    · intro h
      obtain ⟨goal, hgoal⟩ := h
      exact ⟨goal, hgoal.names_congr hsame⟩
    · intro h
      obtain ⟨goal, hgoal⟩ := h
      exact ⟨goal, hgoal.names_congr hback⟩
  · intro out out' hout hout' f hf
    exact ((hmade out hout).names_congr hsame).unique ht (hdone out' hout') hf

end

/-! ## Setters -/

/-- The action ends well. -/
def Action.Succeeds {α : Type} (x : Action α) (i : Instance) : Prop :=
  ∃ a j, x.run.run i = (.ok a, j)

/-- Fields that have an argument, each of them once: first those that depend on no other, then the
sequences with a count, and then the conditional fields. -/
structure SetterOrder (t : Table) (args : List Value) (order : List Nat) : Prop where
  nodup : order.Nodup
  mem_iff : ∀ index, index ∈ order ↔ index < t.fields.length ∧ args.getD index .nil ≠ .nil
  stages : order.Pairwise fun a b => ∀ f g, t.fields[a]? = some f → t.fields[b]? = some g →
    f.stage ≤ g.stage

namespace Instance

/-- Calls the setters of the fields at indices in order, each with its argument. -/
def callSetters (owner : TableRef) (t : Table) (r : RecordRef) (args : List Value) :
    List Nat → Action Unit
  | [] => pure ()
  | index :: order => do
    let _ ← callFunction (.accessor owner t (.set index)) [.record r, args.getD index .nil]
    callSetters owner t r args order

section

variable {i k : Instance} {names : RecordNames} {t : Table} {r : RecordRef} {values : FieldValues}

theorem content_eq_nil_iff (i : Instance) (v : Value) : i.content v = .nil ↔ v = .nil := by
  cases v <;> simp [content, Content.nil]

theorem argument_map_content (i : Instance) (args : List Value) (index : Nat) :
    argument (args.map i.content) index = i.content (args.getD index .nil) := by
  unfold argument
  rw [List.getD_eq_getElem?_getD, List.getD_eq_getElem?_getD, List.getElem?_map]
  cases args[index]? <;> rfl

theorem Records.setField_of_get? {rs : Records} (h : rs.get? r = some ⟨t, values⟩) (index : Nat)
    (c : Content) : rs.setField t index r c =
      (RecordTables.setField rs.names t index values c).map fun u =>
        (rs.put r ⟨t, u.values⟩, u.cleared) := by
  unfold Records.setField
  rw [Records.receiver_eq_ok_iff.2 ⟨h, rfl⟩, ok_bind]
  cases RecordTables.setField rs.names t index values c <;> rfl

theorem Records.getField_of_get? {rs : Records} (h : rs.get? r = some ⟨t, values⟩) {index : Nat}
    {f : Field} (hf : t.fields[index]? = some f) :
    rs.getField t index r = .ok (values.get f.name) := by
  unfold Records.getField
  rw [Records.receiver_eq_ok_iff.2 ⟨h, rfl⟩, ok_bind]
  unfold RecordTables.getField Table.fieldAt
  rw [hf]
  rfl

/-- In the instance `k`, the record under construction has come to hold `values`, while the arguments
are what they were at the start. -/
structure Building (i : Instance) (names : RecordNames) (t : Table) (r : RecordRef)
    (values : FieldValues) (k : Instance) : Prop where
  content : ∀ v, k.content v = i.content v
  names : k.records.names = names
  holds : k.records.get? r = some ⟨t, values⟩

/-- A setter does to the record under construction what `setField` does to its contents. -/
theorem Building.run_setter (h : Building i names t r values k) (owner : TableRef) (index : Nat)
    (v : Value) :
    match RecordTables.setField names t index values (i.content v) with
    | .ok u => ∃ j, (callFunction (.accessor owner t (.set index)) [.record r, v]).run.run k =
        (.ok (.record r), j) ∧ Building i names t r u.values j
    | .error _ => ∃ e j, (callFunction (.accessor owner t (.set index)) [.record r, v]).run.run k =
        (.error e, j) := by
  obtain ⟨hkeeps, hsize⟩ := keeps_setField k t index r v
  have houtcome := outcome_setField k t index r v
  have hrecords := records_setField k t index r v
  rw [Records.setField_of_get? h.holds, h.names, h.content v] at houtcome hrecords
  have hcall : (callFunction (.accessor owner t (.set index)) [.record r, v]).run.run k =
      (setField t index r v).run.run k := rfl
  rw [hcall]
  generalize (setField t index r v).run.run k = run at *
  obtain ⟨outcome, j⟩ := run
  cases hset : RecordTables.setField names t index values (i.content v) with
  | error refusal =>
    rw [hset] at houtcome
    exact ⟨_, j, congrArg (·, j) houtcome⟩
  | ok u =>
    rw [hset] at houtcome hrecords
    have hj : j.records = k.records.put r ⟨t, u.values⟩ := hrecords
    refine ⟨j, congrArg (·, j) houtcome, ?_⟩
    constructor
    · intro w
      exact (hkeeps.content_eq hsize w).trans (h.content w)
    · rw [hj, ← h.names]
      exact Records.names_put h.holds rfl
    · rw [hj]
      exact Records.get?_put_self _ (Records.index_lt_of_get? h.holds)

/-- The setters do to the record under construction what `setEach` does to its contents. -/
theorem Building.run_callSetters (h : Building i names t r values k) (owner : TableRef)
    (args : List Value) (order : List Nat) :
    match setEach names t (args.map i.content) order values with
    | .ok out => ∃ j, (callSetters owner t r args order).run.run k = (.ok (), j) ∧
        Building i names t r out j
    | .error _ => ∃ e j, (callSetters owner t r args order).run.run k = (.error e, j) := by
  induction order generalizing k values with
  | nil => exact ⟨k, rfl, h⟩
  | cons index order ih =>
    have hstep := h.run_setter owner index (args.getD index .nil)
    rw [setEach, argument_map_content]
    rw [callSetters]
    cases hset : RecordTables.setField names t index values (i.content (args.getD index .nil)) with
    | error refusal =>
      rw [hset] at hstep
      obtain ⟨e, j, hrun⟩ := hstep
      exact ⟨e, j, run_bind_error hrun⟩
    | ok u =>
      rw [hset] at hstep
      obtain ⟨j, hrun, hj⟩ := hstep
      rw [run_bind_ok hrun, ok_bind]
      exact ih hj

theorem Building.callSetters_succeeds_iff (h : Building i names t r values k) (owner : TableRef)
    (args : List Value) (order : List Nat) :
    (callSetters owner t r args order).Succeeds k ↔
      ∃ out, setEach names t (args.map i.content) order values = .ok out := by
  have hrun := h.run_callSetters owner args order
  cases hset : setEach names t (args.map i.content) order values with
  | error refusal =>
    rw [hset] at hrun
    obtain ⟨e, j, hrun⟩ := hrun
    constructor
    · intro hok
      obtain ⟨_, _, hok⟩ := hok
      rw [hrun] at hok
      cases hok
    · intro hout
      obtain ⟨_, hout⟩ := hout
      cases hout
  | ok out =>
    rw [hset] at hrun
    obtain ⟨j, hrun, _⟩ := hrun
    exact ⟨fun _ => ⟨out, rfl⟩, fun _ => ⟨(), j, hrun⟩⟩

end

/-! ## Constructors -/

section

variable {i : Instance} {t : Table} {args : List Value} {values : FieldValues}

/-- A new record holds what the passes of the constructor ended with, and no other record is
another's. -/
theorem building_createRecord (args : List Value)
    (h : construct i.records.names t (args.map i.content) = .ok values) :
    ∃ r j, (createRecord t args).run.run i = (.ok (.record r), j) ∧
      Building i j.records.names t r values j ∧
      ∀ other : RecordRef, other.index < i.records.slots.size →
        j.records.names other = i.records.names other := by
  have hcreate : i.records.create t (args.map i.content) = .ok (i.records.push ⟨t, values⟩) := by
    unfold Records.create
    rw [h]
    rfl
  obtain ⟨hkeeps, hsize⟩ := keeps_createRecord i t args
  have houtcome := outcome_createRecord i t args
  have hrecords := records_createRecord i t args
  rw [hcreate] at houtcome hrecords
  generalize (createRecord t args).run.run i = run at *
  obtain ⟨outcome, j⟩ := run
  have hj : j.records = (i.records.push ⟨t, values⟩).1 := hrecords
  refine ⟨_, j, congrArg (·, j) houtcome, ⟨hkeeps.content_eq hsize, rfl, ?_⟩, fun other hother => ?_⟩
  · rw [hj]
    exact Records.get?_push_self i.records ⟨t, values⟩
  · have hne : other ≠ (i.records.push ⟨t, values⟩).2 := by
      rintro rfl
      exact Nat.lt_irrefl _ hother
    unfold Records.names
    rw [hj, Records.get?_push_of_ne i.records _ hne]

theorem construct_of_createRecord {v : Value} {j : Instance}
    (h : (createRecord t args).run.run i = (.ok v, j)) :
    ∃ values, construct i.records.names t (args.map i.content) = .ok values := by
  have houtcome := outcome_createRecord i t args
  rw [h] at houtcome
  unfold Records.create at houtcome
  cases hx : construct i.records.names t (args.map i.content) with
  | error refusal =>
    rw [hx] at houtcome
    cases houtcome
  | ok values => exact ⟨values, rfl⟩

theorem createRecord_succeeds_iff : (createRecord t args).Succeeds i ↔
    ∃ values, construct i.records.names t (args.map i.content) = .ok values := by
  constructor
  · intro h
    obtain ⟨v, j, h⟩ := h
    exact construct_of_createRecord h
  · intro h
    obtain ⟨values, h⟩ := h
    obtain ⟨r, j, hrun, _⟩ := building_createRecord _ h
    exact ⟨.record r, j, hrun⟩

theorem measureFor_take {fields : List Field} {n : Nat} (h : fields.length ≤ n) (i : Instance) :
    measureFor fields (args.take n) i = measureFor fields args i := by
  have hzip : fields.zip (args.take n) = fields.zip args := by
    induction fields generalizing n args with
    | nil => rfl
    | cons f fields ih =>
      cases n with
      | zero => exact absurd h (Nat.not_succ_le_zero _)
      | succ n =>
        cases args with
        | nil => rfl
        | cons v args => exact congrArg ((f, v) :: ·) (ih (Nat.le_of_succ_le_succ h))
  unfold measureFor
  rw [hzip]

/-- Arguments beyond the last field count for nothing. -/
theorem run_createRecord_take (ht : t.WellFormed) (i : Instance) (args : List Value) :
    (createRecord t (args.take t.fields.length)).run.run i = (createRecord t args).run.run i := by
  rw [run_createRecord, run_createRecord, List.map_take,
    (checkedAlike_take _ t (Nat.le_refl _) _).reached_eq]
  rw [measureFor_take (length_reached_le _)]
  unfold Records.create
  rw [construct_take ht]

theorem Building.getField_eq {k : Instance} {names : RecordNames} {r : RecordRef}
    (h : Building i names t r values k) {index : Nat} {f : Field} (hf : t.fields[index]? = some f) :
    k.records.getField t index r = .ok (values.get f.name) :=
  Records.getField_of_get? h.holds hf

end

end Instance

/-! ## Both ways -/

/-- Each table that is given for a field with a count comes with this count. -/
def ComesWithCounts (t : Table) (args : List Value) : Prop :=
  ∀ index f count r, t.fields[index]? = some f → f.arity = .counted count →
    args.getD index .nil = .table r → args.getD count .nil ≠ .nil

section

variable {t : Table} {args : List Value} {order : List Nat}

theorem ComesWithCounts.countsGiven (h : ComesWithCounts t args) (i : Instance) :
    CountsGiven t (args.map i.content) := by
  intro index f count items hf ha harg
  rw [i.argument_map_content] at harg ⊢
  rw [ne_eq, i.content_eq_nil_iff]
  cases hv : args.getD index .nil with
  | table r => exact h index f count r hf ha hv
  | _ =>
    rw [hv] at harg
    cases harg

theorem SetterOrder.inTurn (h : SetterOrder t args order) (i : Instance) :
    InTurn t (args.map i.content) order := by
  refine ⟨h.nodup, fun index hindex => ?_, h.stages⟩
  rw [i.argument_map_content, ne_eq, i.content_eq_nil_iff]
  exact (h.mem_iff index).1 hindex

end

/-- The constructor takes just the arguments that the setters take, one for each field that has an
argument, and both end with the same record.  Arguments beyond the last field count for nothing. -/
theorem create_agrees_setters {d : Declarations} {s : TableSet}
    (hs : TableSet.ofDeclarations d = .ok s) {t : Table} (ht : t ∈ s.tables) (i : Instance)
    (owner : TableRef) {args : List Value}
    (hmade : ∀ v ∈ args, ∀ r, (i.content v).Mentions r → r.index < i.records.slots.size)
    (hcounts : ComesWithCounts t args) :
    ∃ r₀ i₀, (Instance.callFunction (.accessor owner t .create) []).run.run i =
        (.ok (.record r₀), i₀) ∧
      (∀ order, SetterOrder t args order →
        ((Instance.callFunction (.accessor owner t .create) args).Succeeds i ↔
          (Instance.callSetters owner t r₀ args order).Succeeds i₀) ∧
        ∀ v j j', (Instance.callFunction (.accessor owner t .create) args).run.run i = (.ok v, j) →
          (Instance.callSetters owner t r₀ args order).run.run i₀ = (.ok (), j') →
          ∃ r, v = .record r ∧ ∀ index < t.fields.length, ∃ c,
            j.records.getField t index r = .ok c ∧ j'.records.getField t index r₀ = .ok c) ∧
      (Instance.callFunction (.accessor owner t .create) (args.take t.fields.length)).run.run i =
        (Instance.callFunction (.accessor owner t .create) args).run.run i := by
  have hwf := (wellFormed_of_resolves hs).tables t ht
  obtain ⟨first, hfirst, hdefault⟩ := construct_nil i.records.names hwf
  obtain ⟨r₀, i₀, hrun₀, hbuilding, hnames⟩ :=
    Instance.building_createRecord [] hfirst
  refine ⟨r₀, i₀, hrun₀, fun order horder => ?_, Instance.run_createRecord_take hwf i args⟩
  have hsame : ∀ c ∈ args.map i.content, ∀ r, c.Mentions r →
      i.records.names r = i₀.records.names r := by
    rw [List.forall_mem_map]
    intro v hv r hr
    exact (hnames r (hmade v hv r hr)).symm
  have hall : ∀ index < t.fields.length, argument (args.map i.content) index ≠ .nil →
      index ∈ order := by
    intro index hindex harg
    rw [i.argument_map_content, ne_eq, i.content_eq_nil_iff] at harg
    exact (horder.mem_iff index).2 ⟨hindex, harg⟩
  obtain ⟨hiff, hagree⟩ := construct_agrees_setEach hwf (hcounts.countsGiven i) hsame hdefault
    (horder.inTurn i) hall
  constructor
  · exact Instance.createRecord_succeeds_iff.trans
      (hiff.trans (hbuilding.callSetters_succeeds_iff owner args order).symm)
  · intro v j j' hcreate hsetters
    obtain ⟨out, hout⟩ := Instance.construct_of_createRecord hcreate
    obtain ⟨out', hout'⟩ :=
      (hbuilding.callSetters_succeeds_iff owner args order).1 ⟨(), j', hsetters⟩
    obtain ⟨r, k, hrun, hk, _⟩ := Instance.building_createRecord args hout
    have hset := hbuilding.run_callSetters owner args order
    rw [hout'] at hset
    obtain ⟨k', hrun', hk'⟩ := hset
    cases hcreate.symm.trans hrun
    cases hsetters.symm.trans hrun'
    refine ⟨r, rfl, fun index hindex => ?_⟩
    have hf := List.getElem?_eq_getElem hindex
    have hget := hagree out out' hout hout' _ (List.getElem_mem hindex)
    exact ⟨_, hk.getField_eq hf, hget ▸ hk'.getField_eq hf⟩

/-- An instance with a sequence of two bytes and a node. -/
def nodeStart : Instance := Instance.created.after (nodeMoves.take 2)

/-- Arguments for a node of two bytes and that node, and one argument too many. -/
def nodeArguments : List Value := [.integer 2, .table ⟨6⟩, .record ⟨0⟩, .integer 9]

theorem nodeArguments_made : ∀ v ∈ nodeArguments, ∀ r, (nodeStart.content v).Mentions r →
    r.index < nodeStart.records.slots.size := by
  have hbytes : nodeStart.content (.table ⟨6⟩) = .sequence [.integer 7, .integer 8] := rfl
  intro v hv r hr
  simp only [nodeArguments, List.mem_cons, List.not_mem_nil, or_false] at hv
  rcases hv with rfl | rfl | rfl | rfl
  · cases hr
  · rw [hbytes] at hr
    cases hr with
    | item h => simp at h
  · cases hr
    exact Nat.one_pos
  · cases hr

theorem nodeArguments_comeWithCounts : ComesWithCounts nodeTable nodeArguments := by
  intro index f count r hf ha _
  simp only [nodeTable] at hf
  rcases index with _ | _ | _ | index
  · cases hf
    cases ha
  · cases hf
    cases ha
    nofun
  · cases hf
    cases ha
  · cases hf

theorem nodeArguments_order : SetterOrder nodeTable nodeArguments [0, 1, 2] := by
  constructor
  · decide
  · intro index
    constructor
    · intro h
      simp only [List.mem_cons, List.not_mem_nil, or_false] at h
      rcases h with rfl | rfl | rfl
      all_goals exact ⟨by decide, nofun⟩
    · intro h
      have hlt : index < 3 := h.1
      simp only [List.mem_cons, List.not_mem_nil, or_false]
      omega
  · simp [nodeTable, Field.stage]

theorem create_agrees_setters_node :
    TableSet.ofDeclarations nodeDeclarations = .ok nodeSet ∧ nodeTable ∈ nodeSet.tables ∧
      (∀ v ∈ nodeArguments, ∀ r, (nodeStart.content v).Mentions r →
        r.index < nodeStart.records.slots.size) ∧
      ComesWithCounts nodeTable nodeArguments ∧ SetterOrder nodeTable nodeArguments [0, 1, 2] ∧
      (Instance.callFunction (.accessor Instance.globals nodeTable .create) nodeArguments).Succeeds
        nodeStart ∧
      ∃ r₀ i₀, (Instance.callFunction (.accessor Instance.globals nodeTable .create) []).run.run
          nodeStart = (.ok (.record r₀), i₀) ∧
        (Instance.callSetters Instance.globals nodeTable r₀ nodeArguments [0, 1, 2]).Succeeds i₀ := by
  have haccepted : TableSet.ofDeclarations nodeDeclarations = .ok nodeSet := rfl
  have hcreate : (Instance.callFunction (.accessor Instance.globals nodeTable .create)
      nodeArguments).Succeeds nodeStart := ⟨.record ⟨1⟩, _, rfl⟩
  refine ⟨haccepted, List.mem_cons_self, nodeArguments_made, nodeArguments_comeWithCounts,
    nodeArguments_order, hcreate, ?_⟩
  obtain ⟨r₀, i₀, hrun, hagree, _⟩ := create_agrees_setters haccepted List.mem_cons_self nodeStart
    Instance.globals nodeArguments_made nodeArguments_comeWithCounts
  exact ⟨r₀, i₀, hrun, (hagree _ nodeArguments_order).1.1 hcreate⟩

end RecordTables
