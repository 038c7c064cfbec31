import Mathlib.Data.List.Sort
import RecordTables.Proofs.Instance.Loading
import RecordTables.Proofs.Instance.Preloading
import RecordTables.Proofs.Instance.Run

/-!
What registering a set does.

A set whose names are all free becomes as many globals as it has tables, each of them a class to
which the records of that name belong from then on; the module has the same classes and nothing else.
A set with a name that is taken is refused and leaves everything as it was.

Metatables can get in the way of both: a name can be found in the globals that they do not have, and
the loader of a module can end up in the globals.  So looking up the names must show no more than the
globals (`ShowsNoMore`), and a loader must be stored apart from them (`StoresApart`).
-/

namespace RecordTables

/-- Sorting forgets in which order names were listed. -/
theorem mergeSort_eq_of_perm {l l' : List String} (h : l.Perm l') :
    l.mergeSort (· ≤ ·) = l'.mergeSort (· ≤ ·) := by
  refine List.Perm.eq_of_pairwise (fun a b _ _ => le_antisymm) (l.pairwise_mergeSort' (· ≤ ·))
    (l'.pairwise_mergeSort' (· ≤ ·)) ?_
  exact ((List.mergeSort_perm l _).trans h).trans (List.mergeSort_perm l' _).symm

namespace Instance

/-- The globals are there, and list no name that has no value. -/
structure Intact (i : Instance) : Prop where
  there : globals.index < i.tables.size
  listed : (i.table globals).Listed

/-! ## The effect -/

/-- What a registration has added to an instance. -/
structure Registered (i : Instance) (p : Provision) (j : Instance) : Prop where
  new : ∀ t ∈ p.set.tables, i.global t.name = .nil
  others : ∀ key, (∀ t ∈ p.set.tables, key ≠ .ofText t.name) →
    j.rawGet globals key = i.rawGet globals key
  names : j.globalNames =
    i.globalNames.map fun names => (names ++ p.set.names).mergeSort (· ≤ ·)
  classes : ∃ module, (∀ t ∈ p.set.tables, ∃ c, j.global t.name = .table c ∧
      j.classOf t.name = .ok c ∧ j.rawGet module (.ofText t.name) = .table c ∧
      j.metaEntry (.table c) "__call" = .function (.accessor c t .call)) ∧
    (∀ key, (∀ t ∈ p.set.tables, key ≠ .ofText t.name) → j.rawGet module key = .nil) ∧
    ∀ name t, p.module = some name → (i.bindSet p.set).1.Stores name module t →
      j.rawGet t (.ofText name) = .function (.loader module)

section

variable {i j k : Instance} {p : Provision} {s : TableSet} {module : TableRef}
  {classes : List (String × TableRef)}

theorem HoldsClass.call_eq {c : TableRef} {t : Table} (h : i.HoldsClass c t) :
    i.metaEntry (.table c) "__call" = .function (.accessor c t .call) := by
  have hnames : ["__call", "__name", "__metatable"].Nodup := by decide
  rw [h.metaEntry, classMetatable, LuaTable.tableOfNames_eq]
  refine LuaTable.rawGet_setNames (e := ("__call", .function (.accessor c t .call))) ?_
    List.mem_cons_self
  exact hnames

theorem Binds.globalNames_eq {d : Declarations} (hs : TableSet.ofDeclarations d = .ok s)
    (hlisted : (i.table globals).Listed) (hfree : i.taken? s.names = none)
    (hbinds : i.Binds s k module classes) : k.globalNames = i.globalNames.map fun names => (names ++ s.names).mergeSort (· ≤ ·) := by
  have hnodup := (wellFormed_of_resolves hs).names
  have hmem : ∀ e ∈ classEntries classes, e.1 ∈ s.names := by
    intro e he
    rw [← hbinds.names_eq, ← map_fst_classEntries]
    exact List.mem_map_of_mem he
  have hnames : (classEntries classes).map (·.1) = s.names := by
    rw [map_fst_classEntries, hbinds.names_eq]
  have hlisted := namesAmong_setNames (t := i.table globals)
    (fun e he => by obtain ⟨c, _, rfl⟩ := mem_classEntries.1 he; nofun)
    (by rw [hnames]; exact hnodup)
    (fun e he hkey => hlisted e.1 hkey (taken?_eq_none_iff.1 hfree e.1 (hmem e he)))
  unfold globalNames
  rw [hbinds.globalsTable, hlisted, hnames]
  cases namesAmong (i.table globals).keys with
  | error e => rfl
  | ok names =>
    have hsorted : (names.mergeSort (· ≤ ·)).Perm names := List.mergeSort_perm names _
    have hnew : (s.names.reverse ++ names).Perm (names ++ s.names) :=
      List.perm_append_comm.trans ((List.reverse_perm s.names).append_left names)
    exact congrArg Except.ok
      (mergeSort_eq_of_perm (hnew.trans (hsorted.append_right s.names).symm))

/-- The classes of a set are no metatables of one another. -/
theorem Binds.class_ne_metatable (hbinds : i.Binds s k module classes) {c c' : String × TableRef}
    (hc : c ∈ classes) (hc' : c' ∈ classes) : c.2 ≠ ⟨c'.2.index + 1⟩ := by
  obtain ⟨t, _, _, _, _, hclass⟩ := hbinds.class_of_mem hc
  obtain ⟨t', _, _, _, _, hclass'⟩ := hbinds.class_of_mem hc'
  intro heq
  have hcall := hclass'.call_eq
  have hmember := hclass.member (.ofText "__call")
  have hentry : k.rawGet c.2 (.ofText "__call") = k.metaEntry (.table c'.2) "__call" := by
    rw [hclass'.metaEntry, heq, hclass'.metaEntries]
  rw [hentry, hcall] at hmember
  rcases hmember with hnil | ⟨role, hrole⟩
  · cases hnil
  · have hsame : c'.2 = c.2 := (Function.accessor.inj (Value.function.inj hrole)).1
    rw [hsame] at heq
    exact absurd (congrArg TableRef.index heq) (Nat.ne_of_lt (Nat.lt_succ_self _))

/-- A table apart is neither the module nor the metatable of a class. -/
theorem Binds.apart (hbinds : i.Binds s (i.bindSet s).1 module classes) (hs : s.names.Nodup)
    {t : TableRef} (ht : i.Apart s t) :
    t ≠ module ∧ (∀ c ∈ classes, t ≠ ⟨c.2.index + 1⟩) ∧ t.index < (i.bindSet s).1.tables.size := by
  obtain ⟨hlow, hsize⟩ := hbinds.size
  obtain ⟨_, hplace⟩ := ht
  cases hplace with
  | inl hold =>
    refine ⟨?_, fun c hc => ?_, by omega⟩
    · intro heq
      rw [heq] at hold
      omega
    · intro heq
      obtain ⟨_, _, _, hclow, _, _⟩ := hbinds.class_of_mem hc
      rw [heq] at hold
      have hindex : c.2.index + 1 < i.tables.size := hold
      omega
  | inr hglobal =>
    obtain ⟨name, hname, hget⟩ := hglobal
    rw [← hbinds.names_eq] at hname
    obtain ⟨c, hc, rfl⟩ := List.mem_map.1 hname
    have hclass : t = c.2 := Value.table.inj (hget.symm.trans (hbinds.global_eq hs hc))
    obtain ⟨_, _, _, _, hbelow, _⟩ := hbinds.class_of_mem hc
    rw [hclass]
    refine ⟨?_, fun c' hc' => hbinds.class_ne_metatable hc hc', by omega⟩
    intro heq
    rw [heq] at hbelow
    omega

/-- A set has been registered if the globals, the module, and the metatables of its classes are as the
binding of the set has left them. -/
theorem Binds.registered_of {d : Declarations} (hs : TableSet.ofDeclarations d = .ok p.set)
    (hlisted : (i.table globals).Listed) (hfree : i.taken? p.set.names = none)
    (hbinds : i.Binds p.set k module classes) (hclasses : j.classes = k.classes)
    (hglobals : j.table globals = k.table globals) (hmodule : j.table module = k.table module)
    (hmetatable : ∀ c ∈ classes, (j.table c.2).metatable = (k.table c.2).metatable ∧
      j.table ⟨c.2.index + 1⟩ = k.table ⟨c.2.index + 1⟩)
    (hloader : ∀ name t, p.module = some name → (i.bindSet p.set).1.Stores name module t →
      j.rawGet t (.ofText name) = .function (.loader module)) : i.Registered p j := by
  have hnodup := (wellFormed_of_resolves hs).names
  have hclassNames : (classes.map (·.1)).Nodup := by
    rw [hbinds.names_eq]
    exact hnodup
  have hglobal : ∀ key, j.rawGet globals key = k.rawGet globals key := by
    intro key
    unfold rawGet
    rw [hglobals]
  have hentry : ∀ key, j.rawGet module key = k.rawGet module key := by
    intro key
    unfold rawGet
    rw [hmodule]
  have hclassKey : ∀ key : Value, (∀ t ∈ p.set.tables, key ≠ .ofText t.name) →
      ∀ c ∈ classes, key ≠ .ofText c.1 := by
    intro key hkey c hc
    obtain ⟨t, ht, hname, _⟩ := hbinds.class_of_mem hc
    rw [hname]
    exact hkey t ht
  constructor
  · intro t ht
    exact taken?_eq_none_iff.1 hfree t.name (List.mem_map_of_mem ht)
  · intro key hkey
    rw [hglobal, hbinds.rawGet_globals_of_ne (hclassKey key hkey)]
  · have hnames : j.globalNames = k.globalNames := by
      unfold globalNames
      rw [hglobals]
    rw [hnames, hbinds.globalNames_eq hs hlisted hfree]
  · refine ⟨module, fun t ht => ?_, fun key hkey => ?_, hloader⟩
    · obtain ⟨c, hc, hname, _, _, hclass⟩ := hbinds.class_of_table ht
      refine ⟨c.2, ?_, ?_, ?_, ?_⟩
      · rw [← hname]
        exact (hglobal _).trans (hbinds.global_eq hnodup hc)
      · unfold classOf
        rw [hclasses, ← hname, hbinds.registered hclassNames c hc]
      · rw [← hname, hentry]
        exact hbinds.rawGet_module_eq hnodup hc
      · obtain ⟨hsame, htable⟩ := hmetatable c hc
        rw [← hclass.call_eq]
        unfold Instance.metaEntry metatable? rawGet
        simp only [hsame, hclass.metatable, Option.map_some, htable]
    · rw [hentry]
      rcases hbinds.rawGet_module_or key with hnil | ⟨c, hc, heq, _⟩
      · exact hnil
      · exact absurd heq (hclassKey key hkey c hc)

/-- The binding of a set has registered it. -/
theorem Binds.registered_of_same {d : Declarations} (hs : TableSet.ofDeclarations d = .ok p.set)
    (hi : i.Intact) (hfree : i.taken? p.set.names = none)
    (hbinds : i.Binds p.set (i.bindSet p.set).1 module classes)
    (hj : (i.bindSet p.set).1.SameTables j)
    (hloader : ∀ name t, p.module = some name → (i.bindSet p.set).1.Stores name module t →
      j.rawGet t (.ofText name) = .function (.loader module)) : i.Registered p j := by
  have htable := hj.table_eq
  exact hbinds.registered_of hs hi.listed hfree hj.classes (htable _) (htable _)
    (fun c _ => ⟨congrArg _ (htable _), htable _⟩) hloader

/-- So it has with the loader in a table apart. -/
theorem Binds.registered_of_stored {d : Declarations} (hs : TableSet.ofDeclarations d = .ok p.set)
    (hi : i.Intact) (hfree : i.taken? p.set.names = none)
    (hbinds : i.Binds p.set (i.bindSet p.set).1 module classes) {name : String} {t : TableRef}
    (ht : i.Apart p.set t) (hj : ((i.bindSet p.set).1.withLoader name module t).SameTables j)
    (hloader : ∀ name t, p.module = some name → (i.bindSet p.set).1.Stores name module t →
      j.rawGet t (.ofText name) = .function (.loader module)) : i.Registered p j := by
  obtain ⟨hmodule, hmetatable, hsize⟩ := hbinds.apart (wellFormed_of_resolves hs).names ht
  -- only this table has changed since the set was bound
  have htable : ∀ r, j.table r = if r = t then
      ((i.bindSet p.set).1.table t).rawSet (.ofText name) (.function (.loader module))
      else (i.bindSet p.set).1.table r :=
    fun r => (hj.table_eq r).trans (table_rawSet hsize _ _ r)
  have hother : ∀ r, t ≠ r → j.table r = (i.bindSet p.set).1.table r := by
    intro r hr
    rw [htable, if_neg (Ne.symm hr)]
  refine hbinds.registered_of hs hi.listed hfree hj.classes (hother _ ht.1) (hother _ hmodule)
    (fun c hc => ⟨?_, hother _ (hmetatable c hc)⟩) hloader
  by_cases heq : t = c.2
  · rw [htable, if_pos heq.symm, LuaTable.metatable_rawSet, heq]
  · rw [hother _ heq]

theorem registered_of_inject_ok {d : Declarations} (hs : TableSet.ofDeclarations d = .ok p.set)
    (hi : i.Intact) (hshows : i.ShowsNoMore p.set.names)
    (hapart : ∀ name, p.module = some name → i.StoresApart p.set name)
    (hfree : i.taken? p.set.names = none) (hok : (inject p i).1 = .ok ()) :
    i.Registered p (inject p i).2 := by
  obtain ⟨classes, hbinds⟩ := binds_bindSet hi.there p.set
  cases hmodule : p.module with
  | none =>
    obtain ⟨text, hrun⟩ := inject_of_no_module hshows hfree hmodule
    rw [hrun]
    refine hbinds.registered_of_same hs hi hfree (sameTables_note _ _ _) fun name t hname => ?_
    cases hmodule.symm.trans hname
  | some name =>
    have hstores := hapart name hmodule
    cases hrun : (preloadModule name (i.bindSet p.set).2).run.run (i.bindSet p.set).1 with
    | mk outcome j =>
      cases outcome with
      | error e =>
        rw [inject_of_not_preloaded hshows hfree hmodule hrun] at hok
        cases hok
      | ok =>
        obtain ⟨text, hinject⟩ := inject_of_preloaded hshows hfree hmodule hrun
        rw [hinject]
        have hnote := sameTables_note j .info text
        cases hstores.assigns hrun with
        | inl hskipped =>
          obtain ⟨hnone, hj⟩ := hskipped
          refine hbinds.registered_of_same hs hi hfree (hj.trans hnote) fun name' t hname hstored => ?_
          cases hmodule.symm.trans hname
          exact absurd hstored.2 (hnone _)
        | inr hassigned =>
          obtain ⟨j', hassigns, hj⟩ := hassigned
          have hloader : ∀ name' t, p.module = some name' →
              (i.bindSet p.set).1.Stores name' (i.bindSet p.set).2 t →
                (j.note .info text).rawGet t (.ofText name') =
                  .function (.loader (i.bindSet p.set).2) := by
            intro name' t hname hstored
            cases hmodule.symm.trans hname
            exact hstored.rawGet_eq hassigns (hj.trans hnote)
          cases hstores.loader j' hassigns with
          | inl hsame =>
            subst hsame
            exact hbinds.registered_of_same hs hi hfree (hj.trans hnote) hloader
          | inr hset =>
            obtain ⟨t, ht, rfl⟩ := hset
            exact hbinds.registered_of_stored hs hi hfree ht (hj.trans hnote) hloader

end

/-- Libraries and whatever globals leave the globals plain. -/
theorem plainGlobals_of_addLibraries {libraries : List Library} {i : Instance}
    (h : created.addLibraries libraries = .ok i) (values : List (String × Value)) :
    (values.foldl (fun i g => i.setGlobal g.1 g.2) i).PlainGlobals := by
  have hplain := (loaded_of_addLibraries h).plainGlobals
  clear h
  induction values generalizing i with
  | nil => exact hplain
  | cons g values ih => exact ih (hplain.setGlobal g.1 g.2)

/-- An instance with the `package` library and one more global. -/
def nodeHost : Instance := (created.addLibrary .package).setGlobal "answer" (.integer 42)

theorem plainGlobals_nodeHost : nodeHost.PlainGlobals := by
  have hloaded : created.addLibraries [.package] = .ok (created.addLibrary .package) := rfl
  exact plainGlobals_of_addLibraries hloaded [("answer", .integer 42)]

theorem loadersApart_nodeHost : nodeHost.LoadersApart := by
  have hpackage : nodeHost.global "package" = .table package := rfl
  have hpreload : nodeHost.rawGet package (.ofText "preload") = .table preload := rfl
  intro q hq
  cases hpackage.symm.trans hq
  refine ⟨by decide, unguided_of_plain rfl _, fun l hl => ?_⟩
  cases hpreload.symm.trans hl
  exact ⟨by decide, by decide, unguided_of_plain rfl _⟩

/-- An instance whose `package` has the globals as the table for loaders. -/
def loadersInGlobals : Instance :=
  (created.newTable (tableOfNames [("preload", .table globals)])).1.setGlobal "package" (.table ⟨6⟩)

/-- An instance whose globals have a metatable that shows one name more. -/
def guidedGlobals : Instance :=
  let i := (created.newTable (tableOfNames [("node_t", .integer 1)])).1
  let i := (i.newTable (tableOfNames [("__index", .table ⟨6⟩)])).1
  i.setTable globals { i.table globals with metatable := some ⟨7⟩ }

end Instance
end RecordTables
