import RecordTables.Instance.Registration
import RecordTables.Proofs.Instance.Frame
import RecordTables.Proofs.Instance.Names
import RecordTables.Proofs.Schema.WellFormed

/-!
What is there after a table set was put into an instance.

Each table of the set gets a class, which is two new tables: one of functions, and its metatable.
`Defines` says so for the classes, and `Binds` for the classes together with the globals and the
module that hold them.
-/

namespace RecordTables
namespace Instance

/-! ## Classes -/

/-- A table is a class: it has the functions of the class by name, and the metatable of the class
right behind it. -/
structure HoldsClass (i : Instance) (c : TableRef) (t : Table) : Prop where
  there : c.index + 1 < i.tables.size
  functions : ∀ key, i.rawGet c key = (tableOfNames (classFunctions c t)).rawGet key
  metatable : (i.table c).metatable = some ⟨c.index + 1⟩
  metaEntries : ∀ key, i.rawGet ⟨c.index + 1⟩ key = (classMetatable c t).rawGet key

section

variable {i j : Instance} {c : TableRef} {t : Table}

theorem HoldsClass.of_alike (h : i.HoldsClass c t) (hsize : i.tables.size ≤ j.tables.size)
    (hc : (i.table c).Alike (j.table c))
    (hm : (i.table ⟨c.index + 1⟩).Alike (j.table ⟨c.index + 1⟩)) : j.HoldsClass c t :=
  ⟨Nat.lt_of_lt_of_le h.there hsize, fun key => (hc.rawGet_eq key).trans (h.functions key),
    hc.metatable.trans h.metatable, fun key => (hm.rawGet_eq key).trans (h.metaEntries key)⟩

theorem HoldsClass.of_eq (h : i.HoldsClass c t) (hsize : i.tables.size ≤ j.tables.size)
    (hc : j.table c = i.table c) (hm : j.table ⟨c.index + 1⟩ = i.table ⟨c.index + 1⟩) :
    j.HoldsClass c t := by
  refine h.of_alike hsize ?_ ?_
  · rw [hc]
    exact .refl _
  · rw [hm]
    exact .refl _

theorem Keeps.holdsClass (h : i.Keeps j) (hc : i.HoldsClass c t) : j.HoldsClass c t :=
  hc.of_alike h.size (h.tables c (Nat.lt_of_succ_lt hc.there)) (h.tables ⟨c.index + 1⟩ hc.there)

theorem exists_role_of_mem_classFunctions {e : String × Value} (he : e ∈ classFunctions c t) :
    ∃ role, e.2 = .function (.accessor c t role) := by
  rcases mem_classFunctions_iff.1 he with rfl | ⟨index, f, _, rfl | rfl⟩
  · exact ⟨.create, rfl⟩
  · exact ⟨.get index, rfl⟩
  · exact ⟨.set index, rfl⟩

/-- The members of a class are functions. -/
theorem HoldsClass.member (h : i.HoldsClass c t) (key : Value) :
    i.rawGet c key = .nil ∨ ∃ role, i.rawGet c key = .function (.accessor c t role) := by
  rw [h.functions key, LuaTable.tableOfNames_eq]
  rcases LuaTable.rawGet_setNames_or .empty (classFunctions c t) key with hnone | ⟨e, he, _, hget⟩
  · rw [hnone]
    exact Or.inl (LuaTable.rawGet_empty key)
  · rw [hget]
    exact Or.inr (exists_role_of_mem_classFunctions he)

/-- A class has no say in look-ups and assignments. -/
theorem HoldsClass.metaEntry (h : i.HoldsClass c t) (name : String) :
    i.metaEntry (.table c) name = (classMetatable c t).rawGet (.ofText name) := by
  unfold Instance.metaEntry metatable?
  simp only [h.metatable, Option.map_some, Option.getD_some]
  exact h.metaEntries _

end

theorem rawGet_classMetatable_eq_nil (c : TableRef) (t : Table) {name : String}
    (h : name ∉ ["__call", "__name", "__metatable"]) :
    (classMetatable c t).rawGet (.ofText name) = .nil := by
  rw [classMetatable, LuaTable.tableOfNames_eq, LuaTable.rawGet_setNames_of_ne]
  · exact LuaTable.rawGet_empty _
  · intro e he heq
    rw [Value.ofText_inj] at heq
    rw [heq] at h
    exact h (List.mem_map_of_mem (f := (·.1)) he)

theorem classKey_inj {a b : String} : classKey a = classKey b ↔ a = b := by
  constructor
  · intro h
    have hlist : a.toList = b.toList := by
      simpa [classKey, toString] using congrArg String.toList h
    exact String.toList_inj.1 hlist
  · intro h
    rw [h]

/-! ## Defining classes -/

section

variable (i : Instance) (t : Table)

theorem size_defineClass : (i.defineClass t).1.tables.size = i.tables.size + 2 := by
  simp [defineClass, newTable, setTable]

theorem table_defineClass (r : TableRef) : (i.defineClass t).1.table r =
    if r.index = i.tables.size then
      { tableOfNames (classFunctions ⟨i.tables.size⟩ t) with
        metatable := some ⟨i.tables.size + 1⟩ }
    else if r.index = i.tables.size + 1 then classMetatable ⟨i.tables.size⟩ t
    else i.table r := by
  simp only [defineClass, newTable, setTable, table, Array.size_push, Array.getD_eq_getD_getElem?,
    Array.getElem?_setIfInBounds, Array.getElem?_push]
  by_cases h : r.index = i.tables.size
  · rw [if_pos h.symm, if_pos h, if_pos (by omega)]
    rfl
  · rw [if_neg (Ne.symm h), if_neg h, if_neg h]
    split <;> rfl

theorem holdsClass_defineClass : (i.defineClass t).1.HoldsClass ⟨i.tables.size⟩ t := by
  have hclass := table_defineClass i t ⟨i.tables.size⟩
  have hmeta := table_defineClass i t ⟨i.tables.size + 1⟩
  rw [if_pos rfl] at hclass
  rw [if_neg (Nat.succ_ne_self _), if_pos rfl] at hmeta
  constructor
  · rw [size_defineClass]
    exact Nat.lt_succ_self _
  · intro key
    unfold rawGet
    rw [hclass]
    rfl
  · rw [hclass]
  · intro key
    unfold rawGet
    rw [hmeta]

end

/-- Classes were defined: two tables for each class, at the end, and no other table was touched. -/
structure Defines (i : Instance) (ts : List Table) (j : Instance)
    (classes : List (String × TableRef)) : Prop where
  size : j.tables.size = i.tables.size + 2 * ts.length
  records : j.records = i.records
  old : ∀ r : TableRef, r.index < i.tables.size → j.table r = i.table r
  holds : List.Forall₂ (fun t c => c.1 = t.name ∧ i.tables.size ≤ c.2.index ∧ j.HoldsClass c.2 t)
    ts classes
  new : ∀ r : TableRef, i.tables.size ≤ r.index → r.index < j.tables.size →
    ∃ c ∈ classes, r = c.2 ∨ r = ⟨c.2.index + 1⟩
  registered : (classes.map (·.1)).Nodup → ∀ c ∈ classes, j.classes.find? (classKey c.1) = some c.2
  others : ∀ key, (∀ c ∈ classes, key ≠ classKey c.1) → j.classes.find? key = i.classes.find? key

/-- One class was defined, and then the classes of the other tables. -/
theorem Defines.cons {i k j : Instance} {t : Table} {ts : List Table}
    {classes : List (String × TableRef)} (htables : k.tables = (i.defineClass t).1.tables)
    (hrecords : k.records = i.records)
    (hclasses : k.classes = i.classes.insert (classKey t.name) ⟨i.tables.size⟩)
    (hrest : k.Defines ts j classes) :
    i.Defines (t :: ts) j ((t.name, ⟨i.tables.size⟩) :: classes) := by
  have hsize : k.tables.size = i.tables.size + 2 := by rw [htables, size_defineClass]
  have hgrown : k.tables.size ≤ j.tables.size := by
    rw [hrest.size]
    exact Nat.le_add_right _ _
  have htable : ∀ r, k.table r = (i.defineClass t).1.table r := by
    intro r
    unfold table
    rw [htables]
  have hclass : k.HoldsClass ⟨i.tables.size⟩ t :=
    (holdsClass_defineClass i t).of_eq (by rw [htables]) (htable _) (htable _)
  constructor
  · rw [hrest.size, hsize, List.length_cons]
    omega
  · exact hrest.records.trans hrecords
  · intro r hr
    rw [hrest.old r (by omega), htable, table_defineClass, if_neg (Nat.ne_of_lt hr),
      if_neg (by omega)]
  · refine .cons ⟨rfl, Nat.le_refl _, hclass.of_eq hgrown ?_ ?_⟩ (hrest.holds.imp ?_)
    · exact hrest.old _ (Nat.lt_of_succ_lt hclass.there)
    · exact hrest.old _ hclass.there
    · intro t' c hc
      exact ⟨hc.1, by omega, hc.2.2⟩
  · intro r hr hr'
    by_cases hk : k.tables.size ≤ r.index
    · obtain ⟨c, hc, h⟩ := hrest.new r hk hr'
      exact ⟨c, List.mem_cons_of_mem _ hc, h⟩
    · refine ⟨_, List.mem_cons_self, ?_⟩
      have hindex : r.index = i.tables.size ∨ r.index = i.tables.size + 1 := by omega
      rcases hindex with h | h
      · exact Or.inl (congrArg TableRef.mk h)
      · exact Or.inr (congrArg TableRef.mk h)
  · intro hnames c hc
    rw [List.map_cons, List.nodup_cons] at hnames
    rcases List.mem_cons.1 hc with rfl | hc
    · rw [hrest.others, hclasses, Dictionary.find?_insert_self]
      intro c hc heq
      exact hnames.1 (List.mem_map.2 ⟨c, hc, (classKey_inj.1 heq).symm⟩)
    · exact hrest.registered hnames.2 c hc
  · intro key hkey
    rw [List.forall_mem_cons] at hkey
    rw [hrest.others key hkey.2, hclasses, Dictionary.find?_insert_of_ne _ hkey.1]

theorem defines_defineClasses (i : Instance) (ts : List Table) :
    i.Defines ts (i.defineClasses ts).1 (i.defineClasses ts).2 := by
  induction ts generalizing i with
  | nil =>
    refine ⟨rfl, rfl, fun _ _ => rfl, .nil, fun r hr hr' => ?_, fun _ => nofun, fun _ _ => rfl⟩
    exact absurd hr' (Nat.not_lt_of_le hr)
  | cons t ts ih =>
    -- the log entry between two classes touches none of what `Defines` speaks of
    obtain ⟨k, htables, hrecords, hclasses, hdefine⟩ : ∃ k : Instance,
        k.tables = (i.defineClass t).1.tables ∧ k.records = i.records ∧
        k.classes = i.classes.insert (classKey t.name) ⟨i.tables.size⟩ ∧
        i.defineClasses (t :: ts) =
          ((k.defineClasses ts).1, (t.name, ⟨i.tables.size⟩) :: (k.defineClasses ts).2) :=
      ⟨(i.defineClass t).1.note .debug s!"defined class {t.name}", rfl, rfl, rfl, rfl⟩
    rw [hdefine]
    exact .cons htables hrecords hclasses (ih k)

/-! ## Binding a set -/

/-- What the globals and the module hold for classes. -/
def classEntries (classes : List (String × TableRef)) : List (String × Value) :=
  classes.map fun c => (c.1, .table c.2)

/-- Binding classes puts them into the globals and into the module, and touches nothing else. -/
theorem foldl_bindClass {module : TableRef} (hne : module ≠ globals)
    (classes : List (String × TableRef)) {i : Instance} (hglobals : globals.index < i.tables.size)
    (hmodule : module.index < i.tables.size) :
    (classes.foldl (bindClass module) i).tables.size = i.tables.size ∧
      (classes.foldl (bindClass module) i).records = i.records ∧
      (classes.foldl (bindClass module) i).classes = i.classes ∧
      ∀ r, (classes.foldl (bindClass module) i).table r =
        if r = globals ∨ r = module then (i.table r).setNames (classEntries classes)
        else i.table r := by
  induction classes generalizing i with
  | nil =>
    refine ⟨rfl, rfl, rfl, fun r => ?_⟩
    split <;> rfl
  | cons c classes ih =>
    have hsize : (bindClass module i c).tables.size = i.tables.size := by
      unfold bindClass setGlobal
      rw [size_rawSet, size_rawSet]
    have htable : ∀ r, (bindClass module i c).table r =
        if r = globals ∨ r = module then (i.table r).rawSet (.ofText c.1) (.table c.2)
        else i.table r := by
      intro r
      unfold bindClass setGlobal
      rw [table_rawSet (by rw [size_rawSet]; exact hmodule), table_rawSet hglobals,
        table_rawSet hglobals, if_neg hne]
      by_cases hr : r = module
      · rw [if_pos hr, if_pos (Or.inr hr), hr]
      · rw [if_neg hr]
        by_cases hr' : r = globals
        · rw [if_pos hr', if_pos (Or.inl hr'), hr']
        · rw [if_neg hr', if_neg (fun h => h.elim hr' hr)]
    rw [List.foldl_cons]
    obtain ⟨hrestSize, hrestRecords, hrestClasses, hrestTable⟩ :=
      ih (i := bindClass module i c) (by rw [hsize]; exact hglobals) (by rw [hsize]; exact hmodule)
    refine ⟨hrestSize.trans hsize, hrestRecords, hrestClasses, fun r => ?_⟩
    rw [hrestTable, htable]
    by_cases hr : r = globals ∨ r = module
    · rw [if_pos hr, if_pos hr, if_pos hr]
      rfl
    · rw [if_neg hr, if_neg hr, if_neg hr]

/-- A set was put into an instance: its classes were defined, and the globals and a new module have
them under their names. -/
structure Binds (i : Instance) (s : TableSet) (k : Instance) (module : TableRef)
    (classes : List (String × TableRef)) : Prop where
  size : i.tables.size ≤ module.index ∧ k.tables.size = module.index + 1
  records : k.records = i.records
  old : ∀ r : TableRef, r.index < i.tables.size → r ≠ globals → k.table r = i.table r
  globalsTable : k.table globals = (i.table globals).setNames (classEntries classes)
  moduleTable : k.table module = tableOfNames (classEntries classes)
  holds : List.Forall₂ (fun t c => c.1 = t.name ∧ i.tables.size ≤ c.2.index ∧
    c.2.index + 1 < module.index ∧ k.HoldsClass c.2 t) s.tables classes
  new : ∀ r : TableRef, i.tables.size ≤ r.index → r.index < k.tables.size →
    r = module ∨ ∃ c ∈ classes, r = c.2 ∨ r = ⟨c.2.index + 1⟩
  registered : (classes.map (·.1)).Nodup → ∀ c ∈ classes, k.classes.find? (classKey c.1) = some c.2
  others : ∀ key, (∀ c ∈ classes, key ≠ classKey c.1) → k.classes.find? key = i.classes.find? key

theorem binds_bindSet {i : Instance} (hglobals : globals.index < i.tables.size) (s : TableSet) :
    ∃ classes, i.Binds s (i.bindSet s).1 (i.bindSet s).2 classes := by
  have hdefines := defines_defineClasses i s.tables
  refine ⟨(i.defineClasses s.tables).2, ?_⟩
  have hbind : i.bindSet s = ((i.defineClasses s.tables).2.foldl
      (bindClass ⟨(i.defineClasses s.tables).1.tables.size⟩)
      ((i.defineClasses s.tables).1.newTable .empty).1,
      ⟨(i.defineClasses s.tables).1.tables.size⟩) := rfl
  rw [hbind]
  generalize (i.defineClasses s.tables).1 = j at hdefines ⊢
  generalize (i.defineClasses s.tables).2 = classes at hdefines ⊢
  have hgrown : i.tables.size ≤ j.tables.size := by
    rw [hdefines.size]
    exact Nat.le_add_right _ _
  have hnewSize := size_newTable j .empty
  have hne : (⟨j.tables.size⟩ : TableRef) ≠ globals := by
    intro h
    have hindex : j.tables.size = globals.index := congrArg TableRef.index h
    omega
  obtain ⟨hsize, hrecords, hclasses, htable⟩ := foldl_bindClass hne classes
    (i := (j.newTable .empty).1) (by omega) (by rw [hnewSize]; exact Nat.lt_succ_self _)
  generalize classes.foldl (bindClass ⟨j.tables.size⟩) (j.newTable .empty).1 = k at *
  -- the tables of the classes, and those before them apart from the globals, are as defined
  have hkept : ∀ r : TableRef, r.index < j.tables.size → r ≠ globals → k.table r = j.table r := by
    intro r hr hr'
    have hmodule : r ≠ ⟨j.tables.size⟩ := by
      rintro rfl
      exact Nat.lt_irrefl _ hr
    rw [htable, if_neg (fun h => h.elim hr' hmodule), table_newTable_of_ne j _ hmodule]
  have hhigh : ∀ r : TableRef, i.tables.size ≤ r.index → r ≠ globals := by
    rintro r hr rfl
    exact absurd hglobals (Nat.not_lt_of_le hr)
  constructor
  · exact ⟨hgrown, by rw [hsize, hnewSize]⟩
  · rw [hrecords]
    exact hdefines.records
  · intro r hr hr'
    rw [hkept r (Nat.lt_of_lt_of_le hr hgrown) hr', hdefines.old r hr]
  · rw [htable, if_pos (Or.inl rfl), table_newTable_of_ne j _ (Ne.symm hne),
      hdefines.old _ hglobals]
  · rw [htable, if_pos (Or.inr rfl)]
    have hempty : (j.newTable .empty).1.table ⟨j.tables.size⟩ = .empty :=
      table_newTable_self j .empty
    rw [hempty]
    rfl
  · refine hdefines.holds.imp fun t c hc => ?_
    obtain ⟨hname, hlow, hclass⟩ := hc
    refine ⟨hname, hlow, hclass.there, hclass.of_eq ?_ ?_ ?_⟩
    · rw [hsize, hnewSize]
      exact Nat.le_succ _
    · exact hkept c.2 (Nat.lt_of_succ_lt hclass.there) (hhigh _ hlow)
    · exact hkept ⟨c.2.index + 1⟩ hclass.there (hhigh _ (Nat.le_succ_of_le hlow))
  · intro r hr hr'
    rw [hsize, hnewSize] at hr'
    by_cases hmodule : r.index = j.tables.size
    · exact Or.inl (congrArg TableRef.mk hmodule)
    · exact Or.inr (hdefines.new r hr (by omega))
  · rw [hclasses]
    exact hdefines.registered
  · rw [hclasses]
    exact hdefines.others

section

variable {i k : Instance} {s : TableSet} {module : TableRef} {classes : List (String × TableRef)}

theorem Binds.size_le (h : i.Binds s k module classes) : i.tables.size ≤ k.tables.size := by
  rw [h.size.2]
  exact Nat.le_succ_of_le h.size.1

theorem Binds.names_eq (h : i.Binds s k module classes) : classes.map (·.1) = s.names :=
  (map_eq_map_of_forall₂ (fun _ _ hc => hc.1.symm) h.holds).symm

theorem Binds.class_of_mem (h : i.Binds s k module classes) {c : String × TableRef}
    (hc : c ∈ classes) : ∃ t ∈ s.tables, c.1 = t.name ∧ i.tables.size ≤ c.2.index ∧
      c.2.index + 1 < module.index ∧ k.HoldsClass c.2 t := by
  obtain ⟨t, ht, h⟩ := exists_mem_of_forall₂ h.holds hc
  exact ⟨t, ht, h⟩

theorem Binds.class_of_table (h : i.Binds s k module classes) {t : Table} (ht : t ∈ s.tables) :
    ∃ c ∈ classes, c.1 = t.name ∧ i.tables.size ≤ c.2.index ∧ c.2.index + 1 < module.index ∧
      k.HoldsClass c.2 t := by
  obtain ⟨c, hc, h⟩ := exists_mem_of_forall₂ h.holds.flip ht
  exact ⟨c, hc, h⟩

theorem mem_classEntries {e : String × Value} :
    e ∈ classEntries classes ↔ ∃ c ∈ classes, (c.1, .table c.2) = e := by
  unfold classEntries
  exact List.mem_map

theorem map_fst_classEntries (classes : List (String × TableRef)) :
    (classEntries classes).map (·.1) = classes.map (·.1) := by
  unfold classEntries
  rw [List.map_map]
  rfl

/-- A global is what it was, or one of the new classes. -/
theorem Binds.rawGet_globals_or (h : i.Binds s k module classes) (key : Value) :
    k.rawGet globals key = i.rawGet globals key ∨
      ∃ c ∈ classes, key = .ofText c.1 ∧ k.rawGet globals key = .table c.2 := by
  unfold rawGet
  rw [h.globalsTable]
  rcases LuaTable.rawGet_setNames_or (i.table globals) (classEntries classes) key with
    hsame | ⟨e, he, hkey, hget⟩
  · exact Or.inl hsame
  · obtain ⟨c, hc, rfl⟩ := mem_classEntries.1 he
    exact Or.inr ⟨c, hc, hkey, hget⟩

theorem Binds.rawGet_globals_of_ne (h : i.Binds s k module classes) {key : Value}
    (hkey : ∀ c ∈ classes, key ≠ .ofText c.1) :
    k.rawGet globals key = i.rawGet globals key := by
  rcases h.rawGet_globals_or key with hsame | ⟨c, hc, heq, _⟩
  · exact hsame
  · exact absurd heq (hkey c hc)

theorem Binds.global_eq (h : i.Binds s k module classes) (hnames : s.names.Nodup)
    {c : String × TableRef} (hc : c ∈ classes) : k.global c.1 = .table c.2 := by
  have hnodup : ((classEntries classes).map (·.1)).Nodup := by
    rw [map_fst_classEntries, h.names_eq]
    exact hnames
  unfold Instance.global rawGet
  rw [h.globalsTable]
  exact LuaTable.rawGet_setNames hnodup (mem_classEntries.2 ⟨c, hc, rfl⟩)

theorem Binds.rawGet_module_eq (h : i.Binds s k module classes) (hnames : s.names.Nodup)
    {c : String × TableRef} (hc : c ∈ classes) :
    k.rawGet module (.ofText c.1) = .table c.2 := by
  have hnodup : ((classEntries classes).map (·.1)).Nodup := by
    rw [map_fst_classEntries, h.names_eq]
    exact hnames
  unfold rawGet
  rw [h.moduleTable, LuaTable.tableOfNames_eq]
  exact LuaTable.rawGet_setNames hnodup (mem_classEntries.2 ⟨c, hc, rfl⟩)

theorem Binds.rawGet_module_or (h : i.Binds s k module classes) (key : Value) :
    k.rawGet module key = .nil ∨
      ∃ c ∈ classes, key = .ofText c.1 ∧ k.rawGet module key = .table c.2 := by
  unfold rawGet
  rw [h.moduleTable, LuaTable.tableOfNames_eq]
  rcases LuaTable.rawGet_setNames_or .empty (classEntries classes) key with
    hsame | ⟨e, he, hkey, hget⟩
  · rw [hsame]
    exact Or.inl (LuaTable.rawGet_empty key)
  · obtain ⟨c, hc, rfl⟩ := mem_classEntries.1 he
    exact Or.inr ⟨c, hc, hkey, hget⟩

/-- Classes that were there are still there. -/
theorem Binds.holdsClass (h : i.Binds s k module classes) {c : TableRef} {t : Table}
    (hc : i.HoldsClass c t) (hne : c ≠ globals) : k.HoldsClass c t := by
  have hmeta : (⟨c.index + 1⟩ : TableRef) ≠ globals := by
    intro heq
    exact absurd (congrArg TableRef.index heq) (Nat.succ_ne_zero _)
  exact hc.of_eq h.size_le (h.old c (Nat.lt_of_succ_lt hc.there) hne) (h.old _ hc.there hmeta)

end

end Instance
end RecordTables
