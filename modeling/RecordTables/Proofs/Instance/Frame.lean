import RecordTables.Proofs.Instance.Calls
import RecordTables.Proofs.Instance.Names

/-!
What the functions of a class leave alone.

A call may measure the tables among its arguments, make a record or a table, change a record and add
to the log.  Every table there was keeps its entries, its metatable and its length, and the
registered classes stay: that is `Keeps`, and each action of a call has it.
-/

namespace RecordTables

/-! ## Tables -/

/-- Two tables differ at most in where they keep their keys, and not in their length. -/
structure LuaTable.Alike (t u : LuaTable) : Prop where
  items : u.items = t.items
  entries : u.entries = t.entries
  metatable : u.metatable = t.metatable
  length : u.length = t.length

namespace LuaTable

variable {t u v : LuaTable}

theorem Alike.refl (t : LuaTable) : t.Alike t := ⟨rfl, rfl, rfl, rfl⟩

theorem Alike.trans (h : t.Alike u) (h' : u.Alike v) : t.Alike v :=
  ⟨h'.items.trans h.items, h'.entries.trans h.entries, h'.metatable.trans h.metatable,
    h'.length.trans h.length⟩

theorem alike_measured (t : LuaTable) : t.Alike t.measured := ⟨rfl, rfl, rfl, t.length_measured⟩

theorem Alike.rawGet_eq (h : t.Alike u) (key : Value) : u.rawGet key = t.rawGet key := by
  unfold rawGet
  rw [h.items, h.entries]

theorem Alike.keys_eq (h : t.Alike u) : u.keys = t.keys := by
  unfold keys
  rw [h.items, h.entries]

theorem Alike.toList_eq (h : t.Alike u) : u.toList = t.toList := by
  unfold toList
  rw [h.length]
  exact List.map_congr_left fun n _ => h.rawGet_eq _

end LuaTable

/-! ## Instances -/

/-- Every table that an instance has is there in a later one, which has no names in its new tables
and the same classes registered. -/
structure Instance.Keeps (i j : Instance) : Prop where
  size : i.tables.size ≤ j.tables.size
  tables : ∀ r : TableRef, r.index < i.tables.size → (i.table r).Alike (j.table r)
  new : ∀ r : TableRef, i.tables.size ≤ r.index → ∀ name, j.rawGet r (.ofText name) = .nil
  classes : j.classes = i.classes

namespace Instance

variable {i j k : Instance}

theorem table_of_size_le {r : TableRef} (h : i.tables.size ≤ r.index) : i.table r = .empty := by
  unfold table
  rw [Array.getD_eq_getD_getElem?, Array.getElem?_eq_none h]
  rfl

theorem Keeps.rawGet_eq (h : i.Keeps j) {r : TableRef} (hr : r.index < i.tables.size)
    (key : Value) : j.rawGet r key = i.rawGet r key :=
  (h.tables r hr).rawGet_eq key

theorem Keeps.trans (h : i.Keeps j) (h' : j.Keeps k) : i.Keeps k := by
  refine ⟨Nat.le_trans h.size h'.size, fun r hr => ?_, fun r hr name => ?_,
    h'.classes.trans h.classes⟩
  · exact (h.tables r hr).trans (h'.tables r (Nat.lt_of_lt_of_le hr h.size))
  · by_cases hj : r.index < j.tables.size
    · rw [h'.rawGet_eq hj]
      exact h.new r hr name
    · exact h'.new r (Nat.le_of_not_lt hj) name

/-- As long as no table is made, every value keeps its content. -/
theorem Keeps.content_eq (h : i.Keeps j) (hsize : j.tables.size = i.tables.size) (v : Value) :
    j.content v = i.content v := by
  cases v with
  | table r =>
    unfold content
    by_cases hr : r.index < i.tables.size
    · simp only [(h.tables r hr).toList_eq]
    · have hj : j.tables.size ≤ r.index := by omega
      simp only [table_of_size_le hj, table_of_size_le (Nat.le_of_not_lt hr)]
  | _ => rfl

/-! ## Calls -/

theorem rawGet_of_size_le {r : TableRef} (h : i.tables.size ≤ r.index) (key : Value) :
    i.rawGet r key = .nil := by
  unfold rawGet
  rw [table_of_size_le h, LuaTable.rawGet_empty]

theorem keeps_of_tables_eq (htables : j.tables = i.tables) (hclasses : j.classes = i.classes) :
    i.Keeps j := by
  have htable : ∀ r, j.table r = i.table r := by
    intro r
    unfold table
    rw [htables]
  refine ⟨Nat.le_of_eq (congrArg Array.size htables.symm), fun r _ => ?_, fun r hr name => ?_,
    hclasses⟩
  · rw [htable]
    exact .refl _
  · refine rawGet_of_size_le ?_ _
    rw [htables]
    exact hr

theorem Keeps.refl (i : Instance) : i.Keeps i := keeps_of_tables_eq rfl rfl

theorem size_newTable (i : Instance) (t : LuaTable) :
    (i.newTable t).1.tables.size = i.tables.size + 1 := by
  simp [newTable]

theorem table_newTable_of_lt (i : Instance) (t : LuaTable) {r : TableRef}
    (h : r.index < i.tables.size) : (i.newTable t).1.table r = i.table r := by
  refine table_newTable_of_ne i t ?_
  rintro rfl
  exact Nat.lt_irrefl _ h

theorem keeps_newTable (i : Instance) {t : LuaTable} (ht : ∀ name, t.rawGet (.ofText name) = .nil) :
    i.Keeps (i.newTable t).1 := by
  refine ⟨?_, fun r hr => ?_, fun r hr name => ?_, rfl⟩
  · rw [size_newTable]
    exact Nat.le_succ _
  · rw [table_newTable_of_lt i t hr]
    exact .refl _
  · by_cases heq : r = (i.newTable t).2
    · unfold rawGet
      rw [heq, table_newTable_self]
      exact ht name
    · unfold rawGet
      rw [table_newTable_of_ne i t heq, table_of_size_le hr, LuaTable.rawGet_empty]

@[simp] theorem size_setTable (i : Instance) (r : TableRef) (t : LuaTable) :
    (i.setTable r t).tables.size = i.tables.size := by
  simp [setTable]

@[simp] theorem size_rawSet (i : Instance) (r : TableRef) (key value : Value) :
    (i.rawSet r key value).tables.size = i.tables.size :=
  size_setTable i r _

theorem table_rawSet {r : TableRef} (h : r.index < i.tables.size) (key value : Value)
    (other : TableRef) : (i.rawSet r key value).table other =
      if other = r then (i.table r).rawSet key value else i.table other := by
  unfold rawSet
  by_cases heq : other = r
  · rw [if_pos heq, heq, table_setTable_self _ h]
  · rw [if_neg heq, table_setTable_of_ne i _ heq]

theorem keeps_setTable {r : TableRef} {t : LuaTable} (h : (i.table r).Alike t) :
    i.Keeps (i.setTable r t) := by
  refine ⟨Nat.le_of_eq (size_setTable i r t).symm, fun r' hr' => ?_, fun r' hr' name => ?_, rfl⟩
  · by_cases heq : r' = r
    · subst heq
      rw [table_setTable_self t hr']
      exact h
    · rw [table_setTable_of_ne i t heq]
      exact .refl _
  · refine rawGet_of_size_le ?_ _
    rw [size_setTable]
    exact hr'

theorem size_measured (i : Instance) (v : Value) :
    (i.measured v).tables.size = i.tables.size := by
  unfold measured
  split
  · exact size_setTable i _ _
  · rfl

theorem keeps_measured (i : Instance) (v : Value) : i.Keeps (i.measured v) := by
  unfold measured
  split
  · exact keeps_setTable (LuaTable.alike_measured _)
  · exact .refl i

/-- Measuring arguments keeps what there is and makes no table. -/
theorem keeps_measureFor (fields : List Field) (args : List Value) (i : Instance) :
    i.Keeps (measureFor fields args i) ∧
      (measureFor fields args i).tables.size = i.tables.size := by
  unfold measureFor
  generalize (fields.zip args).filter (fun p => p.1.arity.isSequence) = given
  induction given generalizing i with
  | nil => exact ⟨.refl i, rfl⟩
  | cons p given ih =>
    obtain ⟨hkeeps, hsize⟩ := ih (i.measured p.2)
    rw [List.foldl_cons]
    exact ⟨(keeps_measured i p.2).trans hkeeps, hsize.trans (size_measured i p.2)⟩

theorem tables_noteCleared (t : Table) (cleared : List String) (i : Instance) :
    (cleared.foldl (noteCleared t) i).tables = i.tables ∧
      (cleared.foldl (noteCleared t) i).classes = i.classes := by
  induction cleared generalizing i with
  | nil => exact ⟨rfl, rfl⟩
  | cons name cleared ih =>
    rw [List.foldl_cons]
    exact ih (noteCleared t i name)

theorem keeps_createRecord (i : Instance) (t : Table) (args : List Value) :
    i.Keeps ((createRecord t args).run.run i).2 ∧
      ((createRecord t args).run.run i).2.tables.size = i.tables.size := by
  rw [run_createRecord]
  cases i.records.create t (args.map i.content) with
  | error refusal => exact keeps_measureFor _ _ i
  | ok out =>
    obtain ⟨hkeeps, hsize⟩ :=
      keeps_measureFor (reached i.records.names t t.fields (args.map i.content)) args i
    exact ⟨hkeeps.trans (keeps_of_tables_eq rfl rfl), hsize⟩

theorem keeps_setField (i : Instance) (t : Table) (index : Nat) (r : RecordRef) (v : Value) :
    i.Keeps ((setField t index r v).run.run i).2 ∧
      ((setField t index r v).run.run i).2.tables.size = i.tables.size := by
  rw [run_setField]
  cases i.records.receiver t r with
  | error refusal => exact ⟨.refl i, rfl⟩
  | ok record =>
    obtain ⟨hkeeps, hsize⟩ := keeps_measureFor (t.fields.drop index) [v] i
    cases i.records.setField t index r (i.content v) with
    | error refusal => exact ⟨hkeeps, hsize⟩
    | ok out =>
      obtain ⟨htables, hclasses⟩ := tables_noteCleared t out.2
        { measureFor (t.fields.drop index) [v] i with records := out.1 }
      refine ⟨hkeeps.trans (keeps_of_tables_eq htables hclasses), ?_⟩
      exact (congrArg Array.size htables).trans hsize

theorem keeps_getField (i : Instance) (t : Table) (index : Nat) (r : RecordRef) :
    i.Keeps ((getField t index r).run.run i).2 := by
  rw [run_getField]
  cases i.records.getField t index r with
  | error refusal => exact .refl i
  | ok c =>
    cases c with
    | single v => exact .refl i
    | sequence items => exact keeps_newTable i fun _ => rfl

/-- No function of a class touches a table that is there, or the registered classes. -/
theorem keeps_useClass (i : Instance) (t : Table) (role : Role) (args : List Value) :
    i.Keeps ((useClass t role args).run.run i).2 := by
  cases role with
  | create => exact (keeps_createRecord i t args).1
  | call =>
    unfold useClass
    cases args.headD .nil with
    | table _ => exact (keeps_createRecord i t args.tail).1
    | _ => exact .refl i
  | get index => exact receiver_bind args (.refl i) fun r => keeps_getField i t index r
  | set index => exact receiver_bind args (.refl i) fun r => (keeps_setField i t index r _).1

end Instance
end RecordTables
