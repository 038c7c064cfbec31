import RecordTables.Proofs.Instance.Injection

/-!
Instances with their libraries.

Loading a library makes a table or two, and enters the table among the globals and among the modules
that are loaded.  `Loaded` is what that keeps: the tables of the `package` library stay as they are,
and no table has a function of a class.
-/

namespace RecordTables
namespace Instance

/-- A function of a class. -/
def IsAccessor (v : Value) : Prop := ∃ owner t role, v = .function (.accessor owner t role)

/-- The tables of the `package` library are there and plain, and `package` is a global only if it is
that library. -/
structure HasPackage (i : Instance) : Prop where
  size : 6 ≤ i.tables.size
  packagePlain : (i.table package).metatable = none
  preloadPlain : (i.table preload).metatable = none
  preloadEntry : i.rawGet package (.ofText "preload") = .table preload

/-- An instance in which only libraries were loaded. -/
structure Loaded (i : Instance) : Prop where
  plainGlobals : i.PlainGlobals
  hasPackage : i.HasPackage
  library : i.global "package" = .nil ∨ i.global "package" = .table package
  noAccessor : ∀ r key, ¬IsAccessor (i.rawGet r key)
  records : i.records = .empty

section

variable {i j : Instance}

theorem isAccessor_setNames {t : LuaTable} (ht : ∀ key, ¬IsAccessor (t.rawGet key))
    {entries : List (String × Value)} (hentries : ∀ e ∈ entries, ¬IsAccessor e.2) (key : Value) :
    ¬IsAccessor ((t.setNames entries).rawGet key) := by
  rcases LuaTable.rawGet_setNames_or t entries key with hsame | ⟨e, he, _, hget⟩
  · rw [hsame]
    exact ht key
  · rw [hget]
    exact hentries e he

theorem not_isAccessor_nil : ¬IsAccessor .nil := by
  intro h
  obtain ⟨_, _, _, h⟩ := h
  cases h

theorem not_isAccessor_library (name : String) : ¬IsAccessor (.function (.library name)) := by
  intro h
  obtain ⟨_, _, _, h⟩ := h
  cases h

theorem not_isAccessor_entries (library : Library) :
    ∀ e ∈ library.entries, ¬IsAccessor e.2 := by
  intro e he
  unfold Library.entries at he
  rcases List.mem_append.1 he with he | he
  · obtain ⟨f, _, rfl⟩ := List.mem_map.1 he
    exact not_isAccessor_library _
  · rintro ⟨_, _, _, h⟩
    unfold Library.constants at he
    split at he
    · simp only [List.mem_singleton] at he
      subst he
      cases h
    · simp only [List.mem_cons, List.not_mem_nil, or_false] at he
      rcases he with rfl | rfl | rfl | rfl <;> cases h
    · simp only [List.mem_cons, List.not_mem_nil, or_false] at he
      rcases he with rfl | rfl | rfl <;> cases h
    · cases he

theorem not_isAccessor_table (r : TableRef) : ¬IsAccessor (.table r) := by
  rintro ⟨_, _, _, h⟩
  cases h

theorem isAccessor_rawSet {t : LuaTable} (ht : ∀ key, ¬IsAccessor (t.rawGet key)) (name : String)
    {value : Value} (hvalue : ¬IsAccessor value) (key : Value) :
    ¬IsAccessor ((t.rawSet (.ofText name) value).rawGet key) := by
  by_cases hkey : key = .ofText name
  · rw [hkey, LuaTable.rawGet_rawSet_self]
    exact hvalue
  · rw [LuaTable.rawGet_rawSet_ofText_of_ne hkey]
    exact ht key

/-! ## The globals -/

theorem PlainGlobals.of_table_eq (h : i.PlainGlobals) (hsize : i.tables.size ≤ j.tables.size)
    (htable : j.table globals = i.table globals) : j.PlainGlobals := by
  refine ⟨Nat.lt_of_lt_of_le h.there hsize, ?_, ?_⟩
  · rw [htable]
    exact h.plain
  · rw [htable]
    exact h.listed

theorem PlainGlobals.setGlobal (h : i.PlainGlobals) (name : String) (value : Value) :
    (i.setGlobal name value).PlainGlobals := by
  have htable : (i.setGlobal name value).table globals =
      (i.table globals).rawSet (.ofText name) value := by
    unfold Instance.setGlobal
    rw [table_rawSet h.there, if_pos rfl]
  refine ⟨?_, ?_, ?_⟩
  · unfold Instance.setGlobal
    rw [size_rawSet]
    exact h.there
  · rw [htable, LuaTable.metatable_rawSet]
    exact h.plain
  · rw [htable]
    exact h.listed.rawSet _ _

theorem table_setGlobal_of_ne (i : Instance) (name : String) (value : Value) {r : TableRef}
    (h : r ≠ globals) : (i.setGlobal name value).table r = i.table r :=
  table_setTable_of_ne i _ h

/-! ## Loading -/

theorem HasPackage.of_table_eq (h : i.HasPackage) (hsize : i.tables.size ≤ j.tables.size)
    (hpackage : j.table package = i.table package) (hpreload : j.table preload = i.table preload) :
    j.HasPackage := by
  refine ⟨Nat.le_trans h.size hsize, ?_, ?_, ?_⟩
  · rw [hpackage]
    exact h.packagePlain
  · rw [hpreload]
    exact h.preloadPlain
  · unfold rawGet
    rw [hpackage]
    exact h.preloadEntry

theorem Loaded.of_sameTables (h : i.Loaded) (hj : i.SameTables j) : j.Loaded := by
  have hsize : i.tables.size ≤ j.tables.size := Nat.le_of_eq (congrArg _ hj.tables.symm)
  refine ⟨h.plainGlobals.of_table_eq hsize (hj.table_eq _),
    h.hasPackage.of_table_eq hsize (hj.table_eq _) (hj.table_eq _), ?_, fun r key => ?_, ?_⟩
  · unfold global
    rw [hj.rawGet_eq]
    exact h.library
  · rw [hj.rawGet_eq]
    exact h.noAccessor r key
  · rw [hj.records]
    exact h.records

theorem Loaded.setGlobal (h : i.Loaded) {name : String} {value : Value}
    (hvalue : ¬IsAccessor value) (hpackage : name = "package" → value = .table package) :
    (i.setGlobal name value).Loaded := by
  have htable : ∀ r, r ≠ globals → (i.setGlobal name value).table r = i.table r :=
    fun r hr => table_setGlobal_of_ne i name value hr
  have hglobals : (i.setGlobal name value).table globals =
      (i.table globals).rawSet (.ofText name) value := by
    unfold Instance.setGlobal
    rw [table_rawSet h.plainGlobals.there, if_pos rfl]
  refine ⟨h.plainGlobals.setGlobal name value, ?_, ?_, fun r key => ?_, h.records⟩
  · refine h.hasPackage.of_table_eq ?_ (htable _ (by decide)) (htable _ (by decide))
    unfold Instance.setGlobal
    rw [size_rawSet]
  · unfold global rawGet
    rw [hglobals]
    by_cases hname : name = "package"
    · rw [hname, LuaTable.rawGet_rawSet_self]
      exact Or.inr (hpackage hname)
    · rw [LuaTable.rawGet_rawSet_ofText_of_ne (mt Value.ofText_inj.1 (Ne.symm hname))]
      exact h.library
  · by_cases hr : r = globals
    · unfold rawGet
      rw [hr, hglobals]
      exact isAccessor_rawSet (h.noAccessor globals) name hvalue key
    · unfold rawGet
      rw [htable r hr]
      exact h.noAccessor r key

theorem Loaded.rawSet_loaded (h : i.Loaded) (name : String) {value : Value}
    (hvalue : ¬IsAccessor value) : (i.rawSet loaded (.ofText name) value).Loaded := by
  have hthere : loaded.index < i.tables.size := Nat.lt_of_lt_of_le (by decide) h.hasPackage.size
  have htable := table_rawSet hthere (.ofText name) value
  have hother : ∀ r, r ≠ loaded → (i.rawSet loaded (.ofText name) value).table r = i.table r :=
    fun r hr => by rw [htable, if_neg hr]
  have hsize : i.tables.size ≤ (i.rawSet loaded (.ofText name) value).tables.size := by
    rw [size_rawSet]
  refine ⟨h.plainGlobals.of_table_eq hsize (hother _ (by decide)),
    h.hasPackage.of_table_eq hsize (hother _ (by decide)) (hother _ (by decide)), ?_,
    fun r key => ?_, h.records⟩
  · unfold global rawGet
    rw [hother _ (by decide)]
    exact h.library
  · unfold rawGet
    by_cases hr : r = loaded
    · rw [hr, htable, if_pos rfl]
      exact isAccessor_rawSet (h.noAccessor loaded) name hvalue key
    · rw [hother r hr]
      exact h.noAccessor r key

theorem Loaded.newTable (h : i.Loaded) {t : LuaTable} (ht : ∀ key, ¬IsAccessor (t.rawGet key)) :
    (i.newTable t).1.Loaded := by
  have hold : ∀ r : TableRef, r.index < i.tables.size → (i.newTable t).1.table r = i.table r :=
    fun r hr => table_newTable_of_lt i t hr
  have hlow : ∀ {n}, n < 6 → n < i.tables.size := fun hn => Nat.lt_of_lt_of_le hn h.hasPackage.size
  have hsize : i.tables.size ≤ (i.newTable t).1.tables.size := by
    rw [size_newTable]
    exact Nat.le_succ _
  refine ⟨h.plainGlobals.of_table_eq hsize (hold _ h.plainGlobals.there),
    h.hasPackage.of_table_eq hsize (hold _ (hlow (by decide))) (hold _ (hlow (by decide))), ?_,
    fun r key => ?_, h.records⟩
  · unfold global rawGet
    rw [hold _ h.plainGlobals.there]
    exact h.library
  · unfold rawGet
    by_cases hr : r = (i.newTable t).2
    · rw [hr, table_newTable_self]
      exact ht key
    · rw [table_newTable_of_ne i t hr]
      exact h.noAccessor r key

end

theorem not_isAccessor_ofText (text : String) : ¬IsAccessor (.ofText text) := by
  rintro ⟨_, _, _, h⟩
  cases h

theorem isAccessor_tableOfNames {entries : List (String × Value)}
    (h : ∀ e ∈ entries, ¬IsAccessor e.2) (key : Value) :
    ¬IsAccessor ((tableOfNames entries).rawGet key) := by
  rw [LuaTable.tableOfNames_eq]
  refine isAccessor_setNames (fun key => ?_) h key
  rw [LuaTable.rawGet_empty]
  exact not_isAccessor_nil

theorem isAccessor_ofItems {items : List Value} (h : ∀ v ∈ items, ¬IsAccessor v) (key : Value) :
    ¬IsAccessor ((LuaTable.ofItems items).rawGet key) := by
  unfold LuaTable.rawGet
  split
  · next n hn =>
    have hlt : n < items.toArray.size := (LuaTable.position?_eq_some hn).1
    have hitem : (LuaTable.ofItems items).items.getD n .nil = items.toArray[n] := by
      rw [Array.getD_eq_getD_getElem?]
      unfold LuaTable.ofItems
      rw [Array.getElem?_eq_getElem hlt]
      rfl
    rw [hitem]
    exact h _ (List.mem_toArray.1 (Array.getElem_mem hlt))
  · exact not_isAccessor_nil

theorem noAccessor_created (r : TableRef) (key : Value) : ¬IsAccessor (created.rawGet r key) := by
  obtain ⟨n⟩ := r
  have hempty : ∀ key, ¬IsAccessor (LuaTable.empty.rawGet key) := by
    intro key
    rw [LuaTable.rawGet_empty]
    exact not_isAccessor_nil
  rcases n with _ | _ | _ | _ | _ | n
  · refine isAccessor_tableOfNames ?_ key
    simp only [List.cons_append, List.nil_append, List.forall_mem_cons, List.forall_mem_map]
    exact ⟨not_isAccessor_table _, not_isAccessor_ofText _, fun _ _ => not_isAccessor_library _⟩
  · refine isAccessor_tableOfNames ?_ key
    simp only [List.forall_mem_cons]
    exact ⟨not_isAccessor_table _, fun _ h => absurd h List.not_mem_nil⟩
  · exact hempty key
  · refine isAccessor_tableOfNames ?_ key
    simp only [List.forall_mem_append, List.forall_mem_cons]
    exact ⟨not_isAccessor_entries .package, not_isAccessor_table _, not_isAccessor_table _,
      not_isAccessor_table _, fun _ h => absurd h List.not_mem_nil⟩
  · refine isAccessor_ofItems ?_ key
    simp only [List.forall_mem_cons]
    exact ⟨not_isAccessor_library _, not_isAccessor_library _, not_isAccessor_library _,
      fun _ h => absurd h List.not_mem_nil⟩
  · rcases n with _ | n
    · exact hempty key
    · have hnone : created.table ⟨n + 6⟩ = .empty := table_of_size_le (Nat.le_add_left 6 n)
      unfold rawGet
      rw [hnone]
      exact hempty key

theorem loaded_created : created.Loaded := by
  refine ⟨⟨by decide, rfl, ?_⟩, ⟨by decide, rfl, rfl, rfl⟩, Or.inl rfl, noAccessor_created, rfl⟩
  exact LuaTable.listed_empty.setNames _

theorem Loaded.libraryTable {i : Instance} (h : i.Loaded) (library : Library) :
    (i.libraryTable library).1.Loaded ∧
      (library = .package → (i.libraryTable library).2 = package) := by
  have hentries := isAccessor_tableOfNames (not_isAccessor_entries library)
  cases library with
  | package => exact ⟨h, fun _ => rfl⟩
  | io =>
    refine ⟨?_, nofun⟩
    have hmade : ({ i with made := i.made + Library.streams.length } : Instance).Loaded :=
      h.of_sameTables ⟨rfl, rfl, rfl⟩
    refine hmade.newTable (isAccessor_tableOfNames ?_)
    rw [List.forall_mem_append]
    refine ⟨not_isAccessor_entries .io, ?_⟩
    simp only [List.forall_mem_map]
    rintro _ _ ⟨_, _, _, h⟩
    cases h
  | _ => exact ⟨h.newTable hentries, nofun⟩

theorem Loaded.addLibrary {i : Instance} (h : i.Loaded) (library : Library) :
    (i.addLibrary library).Loaded := by
  obtain ⟨htable, hpackage⟩ := h.libraryTable library
  unfold Instance.addLibrary
  generalize i.libraryTable library = made at htable hpackage ⊢
  obtain ⟨j, r⟩ := made
  have hname : library.name = "package" → library = .package := by
    cases library <;> decide
  have hbound : (j.setGlobal library.name (.table r)).Loaded := by
    refine htable.setGlobal (not_isAccessor_table r) fun heq => ?_
    exact congrArg Value.table (hpackage (hname heq))
  have hentered := hbound.rawSet_loaded library.name (not_isAccessor_table r)
  simp only
  split
  · exact hentered.setGlobal (not_isAccessor_library _) (by decide)
  · refine (hentered.newTable (isAccessor_tableOfNames ?_)).of_sameTables ⟨rfl, rfl, rfl⟩
    simp only [List.forall_mem_cons, List.forall_mem_map]
    exact ⟨not_isAccessor_table r, fun _ _ => not_isAccessor_library _⟩
  · exact hentered

theorem loaded_of_addLibraries {libraries : List Library} {i : Instance}
    (h : created.addLibraries libraries = .ok i) : i.Loaded := by
  unfold addLibraries at h
  rw [refuse_eq_ok_iff] at h
  obtain ⟨_, h⟩ := h
  cases h
  generalize Library.safe.filter (· ∈ libraries) = chosen
  have hstep : ∀ i : Instance, i.Loaded → (chosen.foldl addLibrary i).Loaded := by
    induction chosen with
    | nil => exact fun _ h => h
    | cons library chosen ih => exact fun i h => ih _ (h.addLibrary library)
  exact hstep created loaded_created

end Instance
end RecordTables
