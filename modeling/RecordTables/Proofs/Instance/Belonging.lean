import RecordTables.Proofs.Instance.Registering

/-!
The class of a record.

A record finds its members through the name of its table, and the functions of a class tell their
records by that name too.  Since no name ever has two classes, both come down to the class that has
made the record, whatever is registered later and whatever becomes of the globals.
-/

namespace RecordTables

namespace Records

theorem names_push_eq_some_iff (rs : Records) (added : Record) {r : RecordRef} {name : String} :
    (rs.push added).1.names r = some name ↔
      rs.names r = some name ∨ r = (rs.push added).2 ∧ added.table.name = name := by
  by_cases hr : r = (rs.push added).2
  · have hnew : rs.names r = none := by
      have hnone : rs.slots[rs.slots.size]? = none := Array.getElem?_eq_none (Nat.le_refl _)
      rw [hr]
      unfold names get? push
      rw [hnone]
      rfl
    rw [hnew, hr, names_eq_some (rs.get?_push_self added)]
    simp
  · unfold names
    rw [rs.get?_push_of_ne added hr]
    simp [hr]

theorem names_of_setField {rs : Records} {t : Table} {index : Nat} {r : RecordRef} {c : Content}
    {out : Records × List String} (h : rs.setField t index r c = .ok out) :
    out.1.names = rs.names := by
  obtain ⟨record, hrecord, h⟩ := bind_eq_ok_iff.1 h
  obtain ⟨update, _, h⟩ := bind_eq_ok_iff.1 h
  cases h
  exact names_put (receiver_eq_ok_iff.1 hrecord).1 rfl

/-- A function of a table works on the records whose table has its name, and refuses all others. -/
theorem receiver_of_names {rs : Records} {r : RecordRef} {name : String}
    (h : rs.names r = some name) (t : Table) :
    (∃ record, rs.receiver t r = .ok record) ∧ name = t.name ∨
      rs.receiver t r = .error (.wrongRecord t.name) ∧ name ≠ t.name := by
  obtain ⟨record, hr, rfl⟩ := exists_of_names h
  by_cases htable : record.table.name = t.name
  · exact Or.inl ⟨⟨record, receiver_eq_ok_iff.2 ⟨hr, htable⟩⟩, htable⟩
  · refine Or.inr ⟨?_, htable⟩
    unfold receiver
    rw [hr]
    exact if_neg htable

end Records

namespace Instance

/-! ## Records and the classes that made them -/

section

variable {i j : Instance} {c : TableRef} {t : Table} {r : RecordRef} {name : String}

theorem names_createRecord (i : Instance) (t : Table) (args : List Value) {r : RecordRef}
    {name : String} :
    ((createRecord t args).run.run i).2.records.names r = some name ↔
      i.records.names r = some name ∨
        ((createRecord t args).run.run i).1 = .ok (.record r) ∧ t.name = name := by
  rw [outcome_createRecord, records_createRecord]
  cases hcreate : i.records.create t (args.map i.content) with
  | error refusal => simp
  | ok out =>
    obtain ⟨values, _, rfl⟩ := map_eq_ok_iff.1 hcreate
    simp only [Records.names_push_eq_some_iff, Except.ok.injEq, Value.record.injEq, @eq_comm _ r]

theorem names_setField (i : Instance) (t : Table) (index : Nat) (r : RecordRef) (v : Value) :
    ((setField t index r v).run.run i).2.records.names = i.records.names := by
  rw [records_setField]
  cases hset : i.records.setField t index r (i.content v) with
  | error refusal => rfl
  | ok out => exact Records.names_of_setField hset

theorem mem_credits_iff {role : Role} {outcome : Except LuaError Value} {c' : TableRef} :
    (r, c') ∈ credits c role outcome ↔
      (role = .create ∨ role = .call) ∧ outcome = .ok (.record r) ∧ c' = c := by
  have hmem : ∀ r', (r, c') ∈ [(r', c)] ↔
      (Except.ok (.record r') : Except LuaError Value) = .ok (.record r) ∧ c' = c := by
    intro r'
    simp [@eq_comm _ r]
  unfold credits
  split
  · exact (hmem _).trans (and_iff_right (Or.inl rfl)).symm
  · exact (hmem _).trans (and_iff_right (Or.inr rfl)).symm
  · next hcreate hcall =>
    refine iff_of_false List.not_mem_nil ?_
    rintro ⟨hrole | hrole, houtcome, _⟩
    · exact hcreate r hrole houtcome
    · exact hcall r hrole houtcome

/-- A constructor leaves every record in its table, and adds the one that it gives. -/
theorem names_constructed (i : Instance) (c : TableRef) (t : Table) (args : List Value)
    {role : Role} (hrole : role = .create ∨ role = .call) :
    (i.called c t role args).2.records.names r = some name ↔
      i.records.names r = some name ∨
        (i.called c t role args).1 = .ok (.record r) ∧ t.name = name := by
  rcases hrole with rfl | rfl
  · exact names_createRecord i t args
  · have hrefused : ∀ e : LuaError, i.called c t .call args = (.error e, i) →
        ((i.called c t .call args).2.records.names r = some name ↔
          i.records.names r = some name ∨
            (i.called c t .call args).1 = .ok (.record r) ∧ t.name = name) := by
      intro e he
      rw [he]
      exact (or_iff_left fun h => by cases h.1).symm
    cases args with
    | nil => exact hrefused _ rfl
    | cons v rest =>
      cases v with
      | table _ => exact names_createRecord i t rest
      | _ => exact hrefused _ rfl

/-- A getter or a setter leaves every record in its table, and adds none. -/
theorem names_accessed (i : Instance) (c : TableRef) (t : Table) (args : List Value)
    {role : Role} (hrole : ¬(role = .create ∨ role = .call)) :
    (i.called c t role args).2.records.names = i.records.names := by
  cases role with
  | create => exact absurd (Or.inl rfl) hrole
  | call => exact absurd (Or.inr rfl) hrole
  | get index =>
    exact receiver_bind (P := fun j => j.records.names = i.records.names) args rfl
      fun r => congrArg _ (records_getField i t index r)
  | set index =>
    exact receiver_bind (P := fun j => j.records.names = i.records.names) args rfl
      fun r => names_setField i t index r _

theorem names_called (i : Instance) (c : TableRef) (t : Table) (role : Role) (args : List Value) :
    (i.called c t role args).2.records.names r = some name ↔
      i.records.names r = some name ∨
        (r, c) ∈ credits c role (i.called c t role args).1 ∧ t.name = name := by
  rw [mem_credits_iff]
  by_cases hrole : role = .create ∨ role = .call
  · rw [names_constructed i c t args hrole, and_iff_right hrole, and_iff_left rfl]
  · rw [names_accessed i c t args hrole]
    exact (or_iff_left fun h => hrole h.1.1).symm

end

/-- The records that exist are those that were made, each in the table of the class beside it. -/
structure Made (i : Instance) (made : List (RecordRef × TableRef)) : Prop where
  belong : ∀ e ∈ made, ∃ t, i.Constructs e.2 t ∧ i.records.names e.1 = some t.name
  all : ∀ r name, i.records.names r = some name → ∃ c, (r, c) ∈ made

section

variable {i j : Instance} {c : TableRef} {t : Table} {made : List (RecordRef × TableRef)}

theorem Made.of_names_eq (h : i.Made made) (hclasses : ∀ c t, i.Constructs c t → j.Constructs c t)
    (hnames : j.records.names = i.records.names) : j.Made made := by
  refine ⟨fun e he => ?_, fun r name hr => ?_⟩
  · obtain ⟨t, hc, hname⟩ := h.belong e he
    exact ⟨t, hclasses e.2 t hc, by rw [hnames]; exact hname⟩
  · rw [hnames] at hr
    exact h.all r name hr

theorem Made.called (h : i.Made made) (hc : i.Constructs c t) (role : Role) (args : List Value) :
    (i.called c t role args).2.Made (made ++ credits c role (i.called c t role args).1) := by
  have hkeeps := keeps_called i c t role args
  refine ⟨fun e he => ?_, fun r name hr => ?_⟩
  · rcases List.mem_append.1 he with he | he
    · obtain ⟨t', hc', hname⟩ := h.belong e he
      exact ⟨t', hkeeps.constructs_iff.2 hc', (names_called i c t role args).2 (Or.inl hname)⟩
    · obtain ⟨r, c'⟩ := e
      obtain rfl : c' = c := (mem_credits_iff.1 he).2.2
      exact ⟨t, hkeeps.constructs_iff.2 hc,
        (names_called i c' t role args).2 (Or.inr ⟨he, rfl⟩)⟩
  · rcases (names_called i c t role args).1 hr with hr | ⟨hmade, _⟩
    · obtain ⟨c', hc'⟩ := h.all r name hr
      exact ⟨c', List.mem_append_left _ hc'⟩
    · exact ⟨c, List.mem_append_right _ hmade⟩

/-! ## Registrations -/

theorem Binds.constructs {s : TableSet} {module : TableRef} {classes : List (String × TableRef)}
    (h : i.Binds s j module classes) (hi : i.ClassesHold) (hc : i.Constructs c t) :
    j.Constructs c t := by
  obtain ⟨hindex, hclass, _⟩ := hi.classes c t hc
  have hne : c ≠ globals := by
    rintro rfl
    exact absurd hindex (by decide)
  unfold Constructs rawGet
  rw [h.old c (Nat.lt_of_succ_lt hclass.there) hne]
  exact hc

/-- Putting a set into an instance leaves the classes that were there. -/
theorem Injects.constructs {p : Provision} {outcome : Except RegistrationError Unit}
    (h : i.Injects p outcome j) (hi : i.Prepared) (hnames : p.set.names.Nodup)
    (hc : i.Constructs c t) : j.Constructs c t := by
  cases h with
  | collided => exact hc
  | bound _ hbinds _ hj => exact hj.keeps.constructs_iff.2 (hbinds.constructs hi.classesHold hc)
  | preloaded hfree hbinds _ hpackage hpreload hj =>
    have hk := hi.binds hbinds hnames hfree
    have hlow : preload.index < 6 := by decide
    obtain ⟨rfl, rfl⟩ := hk.loaders_eq hpackage hpreload
    refine hj.keeps.constructs_iff.2 ((hk.classesHold.constructs_rawSet_iff hlow ?_).2 ?_)
    · exact fun t => nofun
    · exact hbinds.constructs hi.classesHold hc
  | failed _ hbinds => exact hbinds.constructs hi.classesHold hc

theorem Injects.records_eq {p : Provision} {outcome : Except RegistrationError Unit}
    (h : i.Injects p outcome j) : j.records = i.records := by
  cases h with
  | collided => rfl
  | bound _ hbinds _ hj => exact hj.records.trans hbinds.records
  | preloaded _ hbinds _ _ _ hj => exact hj.records.trans hbinds.records
  | failed _ hbinds => exact hbinds.records

theorem made_of_registering (h : Registering i made) : i.Made made := by
  induction h with
  | loaded h =>
    refine ⟨nofun, fun r name hr => ?_⟩
    rw [(loaded_of_addLibraries h).records] at hr
    cases hr
  | @inject i _ d p h hp ih =>
    have hi := h.prepared
    have hinjects := injects_inject hi.plainGlobals hi.loadersApart p
    have hnames := (wellFormed_of_resolves hp).names
    exact ih.of_names_eq (fun _ _ hc => hinjects.constructs hi hnames hc)
      (congrArg _ hinjects.records_eq)
  | @items i _ _ items ih =>
    exact ih.of_names_eq (fun _ _ hc => (keeps_items i items).constructs_iff.2 hc) rfl
  | call _ hc role args ih => exact ih.called hc role args

/-! ## Runs -/

end

/-- Instances that a program leads to after the last registration: globals may be removed or bound to
other values, and the functions of the classes may be called. -/
inductive Running : Instance → List (RecordRef × TableRef) → Prop
  | registered {i : Instance} {made : List (RecordRef × TableRef)} (h : Registering i made) :
      Running i made
  | bind {i : Instance} {made : List (RecordRef × TableRef)} (h : Running i made) (name : String)
      (value : Value) (hvalue : ∀ c t role, value = .function (.accessor c t role) →
        i.Constructs c t) : Running (i.setGlobal name value) made
  | items {i : Instance} {made : List (RecordRef × TableRef)} (h : Running i made)
      (items : List Value) : Running (i.newTable (.ofItems items)).1 made
  | call {i : Instance} {made : List (RecordRef × TableRef)} {c : TableRef} {t : Table}
      (h : Running i made) (hc : i.Constructs c t) (role : Role) (args : List Value) :
      Running (i.called c t role args).2 (made ++ credits c role (i.called c t role args).1)

section

variable {i : Instance} {made : List (RecordRef × TableRef)}

theorem Running.classesHold_made (h : Running i made) : i.ClassesHold ∧ i.Made made := by
  induction h with
  | registered h => exact ⟨h.prepared.classesHold, made_of_registering h⟩
  | @bind i _ _ name value hvalue ih =>
    obtain ⟨hclasses, hmade⟩ := ih
    have hlow : globals.index < 6 := by decide
    have hother : ∀ t, value ≠ .function (.accessor globals t .create) := by
      intro t heq
      have hindex := (hclasses.classes globals t (hvalue globals t .create heq)).1
      exact absurd hlow (Nat.not_lt_of_le hindex)
    refine ⟨hclasses.rawSet hlow hother, hmade.of_names_eq (fun c t hc => ?_) rfl⟩
    exact (hclasses.constructs_rawSet_iff hlow hother).2 hc
  | @items i _ _ items ih =>
    have hkeeps := keeps_items i items
    exact ⟨hkeeps.classesHold ih.1, ih.2.of_names_eq (fun _ _ hc => hkeeps.constructs_iff.2 hc) rfl⟩
  | @call i _ c t _ hc role args ih =>
    exact ⟨(keeps_called i c t role args).classesHold ih.1, ih.2.called hc role args⟩

section

variable {c : TableRef} {t : Table} {r : RecordRef}

theorem ClassesHold.run_index_class (hi : i.ClassesHold) (hc : i.Constructs c t) (key : Value) :
    (index (.table c) key).run.run i = (.ok (i.rawGet c key), i) := by
  obtain ⟨_, hclass, _⟩ := hi.classes c t hc
  exact run_index_table (hclass.unguided (by decide)).metaEntry_eq_nil key

/-- A record in the table of a class has the members of the class. -/
theorem ClassesHold.run_index_record (hi : i.ClassesHold) (hc : i.Constructs c t)
    (hname : i.records.names r = some t.name) (key : Value) :
    (index (.record r) key).run.run i = (.ok (i.rawGet c key), i) := by
  obtain ⟨_, _, hregistered⟩ := hi.classes c t hc
  rw [Instance.run_index_record]
  unfold member
  rw [hname]
  simp only
  rw [hregistered]
  rfl

theorem called_of_wrongRecord (h : i.records.receiver t r = .error (.wrongRecord t.name))
    (c : TableRef) (index : Nat) (args : List Value) :
    i.called c t (.get index) (.record r :: args) =
        (.error (.runtime s!"expected a {t.name} record"), i) ∧
      i.called c t (.set index) (.record r :: args) =
        (.error (.runtime s!"expected a {t.name} record"), i) := by
  have hget : i.called c t (.get index) (.record r :: args) =
      (getField t index r).run.run i := rfl
  have hset : i.called c t (.set index) (.record r :: args) =
      (setField t index r (args.headD .nil)).run.run i := rfl
  rw [hget, hset, run_getField, run_setField, h, Records.getField_of_receiver_error h]
  exact ⟨rfl, rfl⟩

end

/-- A record belongs to a class: it was made by that class and no other, it has the members of the
class, and among all classes the functions of this one alone work on it. -/
structure BelongsTo (i : Instance) (made : List (RecordRef × TableRef)) (r : RecordRef)
    (c : TableRef) : Prop where
  made : ∀ c', (r, c') ∈ made ↔ c' = c
  index : ∀ key, (index (.record r) key).run.run i = (.ok (i.rawGet c key), i)
  methods : ∀ name args, (callMethod (.record r) name args).run.run i =
    (callEntry (.table c) name (.record r :: args)).run.run i
  receiver : ∀ owner t, i.Constructs owner t →
    ((∃ record, i.records.receiver t r = .ok record) ↔ owner = c)
  refused : ∀ owner t, i.Constructs owner t → owner ≠ c → ∀ index args,
    i.called owner t (.get index) (.record r :: args) =
      (.error (.runtime s!"expected a {t.name} record"), i) ∧
    i.called owner t (.set index) (.record r :: args) =
      (.error (.runtime s!"expected a {t.name} record"), i)

/-- Every record belongs to one class for good. -/
theorem record_belongsTo (h : Running i made) {r : RecordRef} {record : Record}
    (hr : i.records.get? r = some record) : ∃ c, BelongsTo i made r c := by
  obtain ⟨hclasses, hmade⟩ := h.classesHold_made
  obtain ⟨c, hc⟩ := hmade.all r _ (Records.names_eq_some hr)
  obtain ⟨t, hconstructs, hname⟩ := hmade.belong _ hc
  have hmember := hclasses.run_index_record hconstructs hname
  have hreceiver := Records.receiver_of_names hname
  refine ⟨c, ?_, hmember, fun name args => ?_, fun c' t' hc' => ?_, ?_⟩
  · refine fun c' => ⟨fun hc' => ?_, fun heq => heq ▸ hc⟩
    obtain ⟨t', hconstructs', hname'⟩ := hmade.belong _ hc'
    exact (hclasses.name_eq_iff hconstructs hconstructs').1
      (Option.some.inj (hname.symm.trans hname'))
  · unfold callMethod callEntry
    rw [run_bind_ok (hmember _),
      run_bind_ok (hclasses.run_index_class hconstructs _)]
  · rw [← hclasses.name_eq_iff hconstructs hc']
    rcases hreceiver t' with ⟨hok, heq⟩ | ⟨herror, hne⟩
    · exact iff_of_true hok heq
    · rw [herror]
      exact iff_of_false nofun hne
  · intro c' t' hc' hne index args
    rcases hreceiver t' with ⟨_, heq⟩ | ⟨herror, _⟩
    · exact absurd ((hclasses.name_eq_iff hconstructs hc').1 heq) hne
    · exact called_of_wrongRecord herror c' index args

end

/-- An instance with the nodes registered. -/
def nodesRegistered : Instance := (inject ⟨nodeSet, none⟩ created).2

/-- One node was made, and then the global of its class was removed. -/
def nodeMade : Instance :=
  (nodesRegistered.called ⟨6⟩ nodeTable .create []).2.setGlobal "node_t" .nil

theorem record_belongsTo_node :
    ∃ record, Running nodeMade [(⟨0⟩, ⟨6⟩)] ∧ nodeMade.records.get? ⟨0⟩ = some record ∧
      ∃ c, BelongsTo nodeMade [(⟨0⟩, ⟨6⟩)] ⟨0⟩ c := by
  have haccepted : TableSet.ofDeclarations nodeDeclarations = .ok nodeSet := rfl
  have hregistered : Registering nodesRegistered [] :=
    .inject (p := ⟨nodeSet, none⟩) registering_created haccepted
  have hconstructs : nodesRegistered.Constructs ⟨6⟩ nodeTable := rfl
  have hmade : Running nodeMade [(⟨0⟩, ⟨6⟩)] :=
    .bind (.call (.registered hregistered) hconstructs .create []) "node_t" .nil nofun
  have hrecord : ∃ record, nodeMade.records.get? ⟨0⟩ = some record := ⟨_, rfl⟩
  obtain ⟨record, hr⟩ := hrecord
  exact ⟨record, hmade, hr, record_belongsTo hmade hr⟩

end Instance
end RecordTables
