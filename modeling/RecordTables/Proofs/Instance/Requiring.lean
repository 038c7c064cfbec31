import Mathlib.Data.List.TakeWhile
import RecordTables.Proofs.Instance.Classes

/-!
What `require` does.

As long as the tables of the `package` library are as they were made, the only loaders that are found
are those that were preloaded.  So `require` has three outcomes: the module is loaded already, it is
loaded now, or it is not found.  A name counts up to its first zero, and so a module preloaded under a
name with a zero in it is never found.
-/

namespace RecordTables

theorem Action.run_ask {α : Type} (f : Instance → α) (i : Instance) :
    (Action.ask f).run.run i = (.ok (f i), i) := rfl

namespace Instance

/-! ## Names up to the first zero -/

theorem cutAtZero_eq_self_iff {bytes : List UInt8} : cutAtZero bytes = bytes ↔ 0 ∉ bytes := by
  rw [cutAtZero, List.takeWhile_eq_self_iff]
  constructor
  · intro h hz
    simpa using h 0 hz
  · intro h b hb
    simpa using fun hz : b = 0 => h (hz ▸ hb)

theorem zero_not_mem_cutAtZero (bytes : List UInt8) : 0 ∉ cutAtZero bytes := by
  intro h
  simpa using List.mem_takeWhile_imp h

@[simp] theorem cutAtZero_cutAtZero (bytes : List UInt8) :
    cutAtZero (cutAtZero bytes) = cutAtZero bytes :=
  cutAtZero_eq_self_iff.2 (zero_not_mem_cutAtZero bytes)

/-! ## Loaders -/

/-- The `package` library and its searchers are as they were made, and whatever is preloaded is the
loader of a module. -/
structure CanRequire (i : Instance) : Prop where
  size : 6 ≤ i.tables.size
  packageTable : i.table package = created.table package
  searchersTable : i.table searchers = created.table searchers
  loaders : ∀ key, i.rawGet preload key = .nil ∨
    ∃ module, i.rawGet preload key = .function (.loader module)

section

variable {i : Instance} {key : Value}

theorem run_callee_function (f : Function) (args : List Value) (i : Instance) :
    (callee (.function f) args).run.run i = (.ok (f, args), i) := rfl

theorem run_search_preloaded (key : Value) (i : Instance) :
    (search (.function preloadSearcher) key).run.run i = (.ok (i.rawGet preload key), i) := by
  rw [search, run_bind_ok (run_callee_function _ _ i)]
  rfl

theorem run_search_native (key : Value) (i : Instance) :
    (search (.function nativeSearcher) key).run.run i = (.ok .nil, i) := by
  rw [search, run_bind_ok (run_callee_function _ _ i)]
  rfl

theorem CanRequire.run_search_file (h : i.CanRequire) (key : Value) :
    (search (.function fileSearcher) key).run.run i = (.ok .nil, i) := by
  have hpath : i.rawGet package (.ofText "path") = .string (Text.bytesOf Library.searchPath) := by
    show (i.table package).rawGet _ = _
    rw [h.packageTable]
    rfl
  have hask := Action.run_ask (·.rawGet package (.ofText "path")) i
  rw [hpath] at hask
  rw [search, run_bind_ok (run_callee_function _ _ i)]
  simp only
  rw [if_neg (by decide), if_pos trivial, run_bind_ok hask]
  rfl

section

variable {f loader : Function} {r : TableRef} {left n : Nat}

theorem run_findLoader_found (hentry : i.rawGet r (.integer (Int64.ofNat n)) = .function f)
    (hsearch : (search (.function f) key).run.run i = (.ok (.function loader), i)) :
    (findLoader r key (left + 1) n).run.run i = (.ok (some loader), i) := by
  have hask := Action.run_ask (·.rawGet r (.integer (Int64.ofNat n))) i
  rw [hentry] at hask
  rw [findLoader, run_bind_ok hask]
  simp only
  rw [run_bind_ok hsearch]
  rfl

theorem run_findLoader_next (hentry : i.rawGet r (.integer (Int64.ofNat n)) = .function f)
    (hsearch : (search (.function f) key).run.run i = (.ok .nil, i)) :
    (findLoader r key (left + 1) n).run.run i = (findLoader r key left (n + 1)).run.run i := by
  have hask := Action.run_ask (·.rawGet r (.integer (Int64.ofNat n))) i
  rw [hentry] at hask
  rw [findLoader, run_bind_ok hask]
  simp only
  rw [run_bind_ok hsearch]

end

theorem CanRequire.searcher (h : i.CanRequire) (n : Nat) :
    i.rawGet searchers (.integer (Int64.ofNat n)) =
      created.rawGet searchers (.integer (Int64.ofNat n)) := by
  show (i.table searchers).rawGet _ = _
  rw [h.searchersTable]
  rfl

/-- Among the three searchers only the first finds something. -/
theorem CanRequire.run_findLoader (h : i.CanRequire) (key : Value) :
    (findLoader searchers key 3 1).run.run i =
      (.ok (match i.rawGet preload key with
        | .function loader => some loader
        | _ => none), i) := by
  have hfirst := run_search_preloaded key i
  rcases h.loaders key with hnil | ⟨module, hloader⟩
  · rw [hnil] at hfirst ⊢
    rw [run_findLoader_next (h.searcher 1) hfirst,
      run_findLoader_next (h.searcher 2) (h.run_search_file key),
      run_findLoader_next (h.searcher 3) (run_search_native key i)]
    rfl
  · rw [hloader] at hfirst ⊢
    exact run_findLoader_found (h.searcher 1) hfirst

theorem CanRequire.run_loaderOf (h : i.CanRequire) (key : Value) (shown : String) :
    (loaderOf key shown).run.run i =
      (match i.rawGet preload key with
        | .function loader => .ok loader
        | _ => .error (.runtime s!"module '{shown}' not found:"), i) := by
  have htable : i.rawGet package (.ofText "searchers") = .table searchers := by
    show (i.table package).rawGet _ = _
    rw [h.packageTable]
    rfl
  have hsearchers := Action.run_ask (·.rawGet package (.ofText "searchers")) i
  have hcount : (Action.ask fun i => (i.table searchers).keys.length).run.run i = (.ok 3, i) := by
    show (Except.ok (i.table searchers).keys.length, i) = _
    rw [h.searchersTable]
    rfl
  rw [htable] at hsearchers
  rw [loaderOf, run_bind_ok hsearchers]
  simp only
  rw [run_bind_ok hcount, run_bind_ok (h.run_findLoader key)]
  rcases h.loaders key with hnil | ⟨module, hloader⟩
  · rw [hnil]
    rfl
  · rw [hloader]
    rfl

end

/-! ## The three outcomes -/

/-- The key under which a module of the name is kept. -/
abbrev moduleKey (name : List UInt8) : Value := .string (cutAtZero name)

section

variable {i : Instance} {name : List UInt8}

theorem run_requireModule_of_loaded (hloaded : isTrue (i.rawGet loaded (moduleKey name))) :
    (requireModule name).run.run i = (.ok (i.rawGet loaded (moduleKey name)), i) := by
  have hfound := Action.run_ask (·.rawGet loaded (moduleKey name)) i
  show (Action.ask (·.rawGet loaded (moduleKey name)) >>= _).run.run i = _
  rw [run_bind_ok hfound]
  simp only
  rw [if_pos hloaded]
  rfl

/-- A module that is preloaded and not loaded yet is loaded. -/
theorem CanRequire.run_requireModule_of_loader (h : i.CanRequire)
    (hloaded : ¬isTrue (i.rawGet loaded (moduleKey name))) {module : TableRef}
    (hloader : i.rawGet preload (moduleKey name) = .function (.loader module)) :
    (requireModule name).run.run i =
      (.ok (.table module), i.rawSet loaded (moduleKey name) (.table module)) := by
  have hfound := Action.run_ask (·.rawGet loaded (moduleKey name)) i
  have hrun := h.run_loaderOf (moduleKey name)
    (String.ofList (Text.Utf8.lossy (cutAtZero name)))
  rw [hloader] at hrun
  have hcall (args) : (callOwn (.loader module) args).run.run i = (.ok (.table module), i) := rfl
  have hset := Action.run_change (·.rawSet loaded (moduleKey name) (.table module)) i
  have hkept : (i.rawSet loaded (moduleKey name) (.table module)).rawGet loaded (moduleKey name) =
      .table module := by
    have hthere : loaded.index < i.tables.size := Nat.lt_of_lt_of_le (by decide) h.size
    show LuaTable.rawGet (table _ loaded) _ = _
    rw [table_rawSet hthere, if_pos rfl, LuaTable.rawGet_rawSet_self]
  have hagain := Action.run_ask (·.rawGet loaded (moduleKey name))
    (i.rawSet loaded (moduleKey name) (.table module))
  rw [hkept] at hagain
  show (Action.ask (·.rawGet loaded (moduleKey name)) >>= _).run.run i = _
  rw [run_bind_ok hfound]
  simp only
  rw [if_neg hloaded, run_bind_ok hrun, run_bind_ok (hcall _), if_pos nofun,
    run_bind_ok hset, run_bind_ok hagain, if_neg nofun]
  exact hagain

theorem CanRequire.run_requireModule_of_nil (h : i.CanRequire)
    (hloaded : ¬isTrue (i.rawGet loaded (moduleKey name)))
    (hnone : i.rawGet preload (moduleKey name) = .nil) :
    (requireModule name).run.run i =
      (.error (.runtime
        s!"module '{String.ofList (Text.Utf8.lossy (cutAtZero name))}' not found:"), i) := by
  have hfound := Action.run_ask (·.rawGet loaded (moduleKey name)) i
  have hrun := h.run_loaderOf (moduleKey name)
    (String.ofList (Text.Utf8.lossy (cutAtZero name)))
  rw [hnone] at hrun
  show (Action.ask (·.rawGet loaded (moduleKey name)) >>= _).run.run i = _
  rw [run_bind_ok hfound]
  simp only
  rw [if_neg hloaded, run_bind_error hrun]

end

/-! ## With the library and without -/

section

variable {i : Instance} {r : TableRef}

theorem global_setGlobal (h : globals.index < i.tables.size) (name : String) (value : Value)
    (other : String) :
    (i.setGlobal name value).global other = if other = name then value else i.global other := by
  have htable : (i.setGlobal name value).table globals =
      (i.table globals).rawSet (.ofText name) value := by
    rw [setGlobal, table_rawSet h, if_pos rfl]
  rw [global, rawGet, htable]
  by_cases hname : other = name
  · rw [if_pos hname, hname, LuaTable.rawGet_rawSet_self]
  · rw [if_neg hname, LuaTable.rawGet_rawSet_ofText_of_ne (mt Value.ofText_inj.1 hname)]
    rfl

theorem size_libraryTable (i : Instance) (library : Library) :
    i.tables.size ≤ (i.libraryTable library).1.tables.size := by
  cases library with
  | package => exact Nat.le_refl _
  | _ => exact Nat.le_of_lt (Nat.lt_of_lt_of_eq (Nat.lt_succ_self _) (size_newTable _ _).symm)

theorem table_libraryTable (i : Instance) (library : Library) (hr : r.index < i.tables.size) :
    (i.libraryTable library).1.table r = i.table r := by
  cases library with
  | package => rfl
  | io => exact table_newTable_of_lt { i with made := i.made + _ } _ hr
  | _ => exact table_newTable_of_lt i _ hr

/-- A library is a new table, or that of `package`; it becomes a global and a loaded module. -/
theorem table_addLibrary (i : Instance) (library : Library) (hr : r.index < i.tables.size)
    (hglobals : r ≠ globals) (hloaded : r ≠ loaded) :
    (i.addLibrary library).table r = i.table r := by
  have hset : ∀ (j : Instance) name value, (j.setGlobal name value).table r = j.table r :=
    fun j name value => table_setGlobal_of_ne j name value hglobals
  have hentered : ∀ (j : Instance) key value, (j.rawSet loaded key value).table r = j.table r :=
    fun j key value => table_setTable_of_ne j _ hloaded
  have hsize := size_libraryTable i library
  have htable := table_libraryTable i library hr
  unfold Instance.addLibrary
  generalize i.libraryTable library = made at hsize htable ⊢
  obtain ⟨j, q⟩ := made
  simp only at hsize htable ⊢
  split
  · rw [hset, hentered, hset, htable]
  · show (newTable _ _).1.table r = _
    rw [table_newTable_of_lt, hentered, hset, htable]
    show r.index < (rawSet _ _ _ _).tables.size
    rw [size_rawSet]
    show r.index < (rawSet _ _ _ _).tables.size
    rw [size_rawSet]
    omega
  · rw [hentered, hset, htable]

theorem global_package_addLibrary (h : globals.index < i.tables.size) (library : Library) :
    (i.addLibrary library).global "package" =
      if library = .package then .table package else i.global "package" := by
  have hentered : ∀ (j : Instance) key value,
      (j.rawSet loaded key value).global "package" = j.global "package" := by
    intro j key value
    rw [global, rawGet, show (j.rawSet loaded key value).table globals = j.table globals from
      table_setTable_of_ne j _ (by decide)]
    rfl
  have hsize := size_libraryTable i library
  have htable := table_libraryTable i library h
  have hname : "package" = library.name ↔ library = .package := by cases library <;> decide
  have hpackage : library = .package → (i.libraryTable library).2 = package := by
    rintro rfl
    rfl
  unfold Instance.addLibrary
  generalize i.libraryTable library = made at hsize htable hpackage ⊢
  obtain ⟨j, q⟩ := made
  simp only at hsize htable hpackage ⊢
  have hthere : globals.index < j.tables.size := Nat.lt_of_lt_of_le h hsize
  have hbound : ((j.setGlobal library.name (.table q)).rawSet loaded (.ofText library.name)
      (.table q)).global "package" =
        if library = .package then .table package else i.global "package" := by
    rw [hentered, global_setGlobal hthere]
    by_cases hlibrary : library = .package
    · rw [if_pos (hname.2 hlibrary), if_pos hlibrary, hpackage hlibrary]
    · rw [if_neg (mt hname.1 hlibrary), if_neg hlibrary, global, rawGet, htable]
      rfl
  have hstill : globals.index < ((j.setGlobal library.name (.table q)).rawSet loaded
      (.ofText library.name) (.table q)).tables.size := by
    rw [size_rawSet, setGlobal, size_rawSet]
    exact hthere
  split
  · rw [global_setGlobal hstill, if_neg (by decide), hbound]
  · have hnew := table_newTable_of_lt _ (stringMetatable q) hstill
    exact (congrArg (·.rawGet (.ofText "package")) hnew).trans hbound
  · exact hbound

theorem foldl_addLibrary (chosen : List Library) (hi : i.Loaded) :
    (chosen.foldl addLibrary i).global "package" =
        (if .package ∈ chosen then .table package else i.global "package") ∧
      ∀ r : TableRef, r.index < 6 → r ≠ globals → r ≠ loaded →
        (chosen.foldl addLibrary i).table r = i.table r := by
  induction chosen generalizing i with
  | nil => exact ⟨rfl, fun _ _ _ _ => rfl⟩
  | cons library chosen ih =>
    obtain ⟨hglobal, htable⟩ := ih (hi.addLibrary library)
    rw [List.foldl_cons, hglobal, global_package_addLibrary hi.plainGlobals.there]
    refine ⟨?_, fun r hr hglobals hloaded => ?_⟩
    · simp only [List.mem_cons, eq_comm (a := Library.package)]
      by_cases hmem : .package ∈ chosen
      · rw [if_pos hmem, if_pos (Or.inr hmem)]
      · simp only [hmem, or_false, if_false]
    · rw [htable r hr hglobals hloaded]
      exact table_addLibrary i library (Nat.lt_of_lt_of_le hr hi.hasPackage.size) hglobals hloaded

/-- Where libraries were loaded, `package` is a global if it is one of them, and nothing is
preloaded. -/
theorem packageLibrary_of_addLibraries {libraries : List Library}
    (h : created.addLibraries libraries = .ok i) :
    i.global "package" = (if .package ∈ libraries then .table package else .nil) ∧
      i.CanRequire ∧ ∀ key, i.rawGet preload key = .nil := by
  have hloaded := loaded_of_addLibraries h
  unfold addLibraries at h
  rw [refuse_eq_ok_iff] at h
  obtain ⟨_, h⟩ := h
  cases h
  have hmem : .package ∈ Library.safe.filter (· ∈ libraries) ↔ .package ∈ libraries := by
    rw [List.mem_filter, decide_eq_true_iff]
    exact and_iff_right (by decide)
  generalize Library.safe.filter (· ∈ libraries) = chosen at hmem hloaded ⊢
  obtain ⟨hglobal, htable⟩ := foldl_addLibrary chosen loaded_created
  have hpreload : ∀ key, (chosen.foldl addLibrary created).rawGet preload key = .nil := by
    intro key
    rw [rawGet, htable preload (by decide) (by decide) (by decide)]
    exact LuaTable.rawGet_empty key
  refine ⟨?_, ⟨hloaded.hasPackage.size, ?_, ?_, fun key => Or.inl (hpreload key)⟩, hpreload⟩
  · simp only [hglobal, hmem]
    rfl
  · exact htable package (by decide) (by decide) (by decide)
  · exact htable searchers (by decide) (by decide) (by decide)

end
end Instance
end RecordTables
