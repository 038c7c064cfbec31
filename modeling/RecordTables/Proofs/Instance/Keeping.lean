import RecordTables.Proofs.Instance.Accepting
import RecordTables.Proofs.Record.Effect

/-!
Values that a change of the selector leaves in place.

A setter stores what it is given in the form that the chosen case asks for: an integer under a case
of integers, a floating point number under a case of numbers.  The setter of a selector only asks
whether the chosen case takes the value that is there, and leaves it in the form in which it was
stored under an earlier case.  `kept_value_restored` says when this makes a difference.
-/

namespace RecordTables

/-! ## Values in the form of a case -/

/-- A value is in the form in which a representation stores it. -/
def Value.InForm (v : Value) (luaType : LuaType) : Prop :=
  (luaType = .integer → ∃ i, v = .integer i) ∧ (luaType = .number → ∃ x, v = .float x)

section

variable {names : RecordNames} {place : Place} {luaType : LuaType} {type : ValueType}
  {v stored : Value}

/-- A check changes a value exactly if the value is not in the form of the representation. -/
theorem checkSingle_eq_self_iff
    (h : checkSingle names place luaType type (.single v) = .ok stored) :
    stored = v ↔ v.InForm luaType := by
  unfold Value.InForm
  cases luaType with
  | integer =>
    obtain ⟨n, hn, rfl⟩ := checkInteger_eq_ok h
    constructor
    · intro hsame
      exact ⟨fun _ => ⟨n, hsame.symm⟩, nofun⟩
    · intro hform
      obtain ⟨i, rfl⟩ := hform.1 rfl
      cases hn
      rfl
  | number =>
    cases v with
    | integer i =>
      cases h
      constructor
      · intro hsame
        cases hsame
      · intro hform
        obtain ⟨x, hx⟩ := hform.2 rfl
        cases hx
    | float x =>
      cases h
      exact ⟨fun _ => ⟨nofun, fun _ => ⟨x, rfl⟩⟩, fun _ => rfl⟩
    | _ => cases h
  | table =>
    refine ⟨fun _ => ⟨nofun, nofun⟩, fun _ => ?_⟩
    cases type with
    | table name => exact checkRecord_eq_ok h
    | _ => cases h
  | conditional => cases h
  | _ =>
    refine ⟨fun _ => ⟨nofun, nofun⟩, fun _ => ?_⟩
    cases v with
    | string => cases h <;> rfl
    | boolean => cases h <;> rfl
    | light => cases h <;> rfl
    | nil => cases h <;> rfl
    | _ => cases h

end

/-! ## Kept values -/

theorem Value.Suits.content_eq {names : RecordNames} {luaType : LuaType} {type : ValueType}
    {v : Value} (h : v.Suits names luaType type) (i : Instance) : i.content v = .single v := by
  cases h with
  | integer hb hn => cases hn <;> rfl
  | _ => rfl

section

variable {names : RecordNames} {t : Table} {g : Field} {values : FieldValues} {w : Value}

/-- The setter of a conditional field takes a value that suits the case which is chosen. -/
theorem setField_of_suits (ht : t.WellFormed) (hv : values.Conform names t) {k : Nat}
    (hg : t.fields[k]? = some g) {condition : Condition} (hc : g.condition = some condition)
    {f : Field} (hf : t.fields[condition.field]? = some f) {n : Int64}
    (hn : values.get f.name = .single (.integer n)) {choice : Case}
    (hcase : condition.case? n.toInt = some choice)
    (hsuits : w.Suits names choice.luaType choice.type) :
    ∃ u stored, setField names t k values (.single w) = .ok u ∧
      u.values.get g.name = .single stored ∧ (stored = w ↔ w.InForm choice.luaType) := by
  have hwf := ht.fields g (List.mem_of_getElem? hg)
  have hne : Content.single w ≠ .nil := fun h => hsuits.ne_nil (Content.single.inj h)
  have haccepts : g.Accepts names t values (.single w) := .chosen hc hf hn hcase hsuits
  obtain ⟨u, hu⟩ := (setField_isOk_iff hg _).2 ((storedForm_isOk_iff hwf hv _).2 haccepts)
  obtain ⟨_, hform, hself, _⟩ := get_of_setField ht hv hg hu
  rw [storedForm_of_conditional (hwf.luaType_eq hc) hne, checkConditional_eq hc hf hn, hcase,
    map_eq_ok_iff] at hform
  obtain ⟨stored, hstored, rfl⟩ := hform
  exact ⟨u, stored, hu, hself, checkSingle_eq_self_iff hstored⟩

end

/-- A value that a conditional field holds after its selector was set is the one that it held before,
and its own setter would take this value.  The setter would store it unchanged exactly if it has the
form of the case that the selector chooses now. -/
theorem kept_value_restored {d : Declarations} {s : TableSet}
    (hs : TableSet.ofDeclarations d = .ok s) {moves : List Move} (hm : ∀ m ∈ moves, m.Within s)
    {i : Instance} (hi : i = Instance.created.after moves) {r : RecordRef} {record : Record}
    (hr : i.records.get? r = some record) {k : Nat} {g : Field}
    (hg : record.table.fields[k]? = some g) {condition : Condition}
    (hc : g.condition = some condition) (owner : TableRef) (v : Value) {a : Value} {j : Instance}
    (hset : (Instance.callSetter owner record.table condition.field r v).run.run i = (.ok a, j))
    {w : Value} (hw : w ≠ .nil) (hkept : j.records.getField record.table k r = .ok (.single w)) :
    i.records.getField record.table k r = .ok (.single w) ∧
      ∃ n choice stored j',
        j.records.getField record.table condition.field r = .ok (.single (.integer n)) ∧
        condition.case? n.toInt = some choice ∧
        (Instance.callSetter owner record.table k r w).run.run j = (.ok (.record r), j') ∧
        j'.records.getField record.table k r = .ok (.single stored) ∧
        (stored = w ↔ w.InForm choice.luaType) := by
  have hsound := wellFormed_of_resolves hs
  subst hi
  obtain ⟨htable, hv⟩ := conform_after hsound hm r record hr
  have hwf := hsound.tables record.table htable
  have hmem := List.mem_of_getElem? hg
  obtain ⟨⟨f, hf⟩, _⟩ := (hwf.fields g hmem).condition hc
  rcases Instance.callSetter_cases hr owner condition.field v with
    ⟨_, _, _, hrun, _⟩ | ⟨u, j, hu, hrun, hj⟩
  · cases hrun.symm.trans hset
  cases hrun.symm.trans hset
  have hafter : j.records.get? r = some { record with values := u.values } := by
    rw [hj]
    exact Records.get?_put_self _ (Records.index_lt_of_get? hr)
  rw [Instance.Records.getField_of_get? hafter hg, Except.ok.injEq] at hkept
  have heffect := setterEffect_of_setField hwf hv hf.found hu
  obtain ⟨hold, n, choice, hn, hcase, hsuits⟩ := heffect.left hmem hc hw hkept
  have hnames : j.records.names = (Instance.created.after moves).records.names := by
    rw [hj]
    exact Records.names_put hr rfl
  have hconform := ((setField_yields hwf hv hf.found _).of_ok hu).1
  rw [← hnames] at hconform hsuits
  obtain ⟨u', stored, hu', hstored, hform⟩ :=
    setField_of_suits hwf hconform hg hc hf.found hn hcase hsuits
  refine ⟨?_, n, choice, stored, ?_⟩
  · rw [Instance.Records.getField_of_get? hr hg, hold]
  · rw [← hsuits.content_eq j] at hu'
    rcases Instance.callSetter_cases hafter owner k w with
      ⟨_, _, herror, _⟩ | ⟨u'', j', hu'', hrun', hj'⟩
    · cases hu'.symm.trans herror
    · cases hu'.symm.trans hu''
      have hlast : j'.records.get? r = some { record with values := u'.values } := by
        rw [hj']
        exact Records.get?_put_self _ (Records.index_lt_of_get? hafter)
      refine ⟨j', ?_, hcase, hrun', ?_, hform⟩
      · rw [Instance.Records.getField_of_get? hafter hf.found, hn]
      · rw [Instance.Records.getField_of_get? hlast hg, hstored]

/-! ## An example

A choice holds a number under the kind zero and a byte under the kind one. -/

def choiceDeclarations : Declarations where
  read := [⟨"choice", "choice_t", [
    ⟨"kind", none, some "uint8", .integer, none, none, []⟩,
    ⟨"d", none, none, .conditional, none, some "self::kind",
      [⟨0, "double", .number⟩, ⟨1, "uint8", .integer⟩]⟩]⟩]
  definition := []

def choiceTable : Table where
  tag := "choice"
  name := "choice_t"
  origin := .read
  fields := [
    ⟨"kind", "kind", .integer, some (.scalar .uint8), .one, none⟩,
    ⟨"d", "d", .conditional, none, .one,
      some ⟨0, [⟨0, .number, .scalar .double⟩, ⟨1, .integer, .scalar .uint8⟩]⟩⟩]

def choiceSet : TableSet := ⟨[choiceTable]⟩

/-- The number two. -/
def two : Binary64 := ⟨0x4000000000000000⟩

/-- A choice of the number two is made. -/
def choiceMoves : List Move :=
  [.call (.accessor Instance.globals choiceTable .create) [.integer 0, .float two]]

def choiceRecord : Record where
  table := choiceTable
  values := ⟨[("d", .single (.float two)), ("kind", .single (.integer 0))]⟩

theorem choiceMoves_within : ∀ m ∈ choiceMoves, m.Within choiceSet := by
  intro m hm
  rw [List.mem_singleton.1 hm]
  exact Function.belongs_iff.2
    ⟨choiceTable, List.mem_cons_self, Instance.globals, .create, rfl, trivial⟩

/-- The number stays when the kind becomes one, where the setter stores it as a byte. -/
theorem kept_value_unconverted :
    TableSet.ofDeclarations choiceDeclarations = .ok choiceSet ∧
      (∀ m ∈ choiceMoves, m.Within choiceSet) ∧
      (Instance.created.after choiceMoves).records.get? ⟨0⟩ = some choiceRecord ∧
      ∃ j j', (Instance.callSetter Instance.globals choiceTable 0 ⟨0⟩ (.integer 1)).run.run
          (Instance.created.after choiceMoves) = (.ok (.record ⟨0⟩), j) ∧
        j.records.getField choiceTable 1 ⟨0⟩ = .ok (.single (.float two)) ∧
        (Instance.callSetter Instance.globals choiceTable 1 ⟨0⟩ (.float two)).run.run j =
          (.ok (.record ⟨0⟩), j') ∧
        j'.records.getField choiceTable 1 ⟨0⟩ = .ok (.single (.integer 2)) :=
  ⟨rfl, choiceMoves_within, rfl, _, _, rfl, rfl, rfl, rfl⟩

theorem kept_value_restored_choice :
    TableSet.ofDeclarations choiceDeclarations = .ok choiceSet ∧
      (∀ m ∈ choiceMoves, m.Within choiceSet) ∧
      (Instance.created.after choiceMoves).records.get? ⟨0⟩ = some choiceRecord ∧
      ∃ j, (Instance.callSetter Instance.globals choiceTable 0 ⟨0⟩ (.integer 1)).run.run
          (Instance.created.after choiceMoves) = (.ok (.record ⟨0⟩), j) ∧
        j.records.getField choiceTable 1 ⟨0⟩ = .ok (.single (.float two)) ∧
        ∃ stored j', (Instance.callSetter Instance.globals choiceTable 1 ⟨0⟩ (.float two)).run.run j =
            (.ok (.record ⟨0⟩), j') ∧
          j'.records.getField choiceTable 1 ⟨0⟩ = .ok (.single stored) ∧ stored ≠ .float two := by
  have haccepted : TableSet.ofDeclarations choiceDeclarations = .ok choiceSet := rfl
  have hchoice : (Instance.created.after choiceMoves).records.get? ⟨0⟩ = some choiceRecord := rfl
  have hfield : choiceRecord.table.fields[1]? = some choiceTable.fields[1] := rfl
  refine ⟨haccepted, choiceMoves_within, hchoice, _, rfl, rfl, ?_⟩
  obtain ⟨_, n, choice, stored, j', hn, hcase, hrun, hstored, hform⟩ :=
    kept_value_restored haccepted choiceMoves_within rfl hchoice hfield rfl Instance.globals
      (.integer 1) rfl Value.noConfusion rfl
  refine ⟨stored, j', hrun, hstored, fun hsame => ?_⟩
  cases hn
  cases hcase
  obtain ⟨_, hinteger⟩ := (hform.1 hsame).1 rfl
  cases hinteger

end RecordTables
