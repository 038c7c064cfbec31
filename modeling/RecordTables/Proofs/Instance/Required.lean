import RecordTables.Proofs.Instance.Modules

/-!
What `require` gives after registrations.

The first time that a module is required after it was registered, `require` gives a table of the
classes of the set that was registered last, and from then on always the same table.  This is so for
every name without a zero in it, and for no other, since `require` reads a name up to its first zero.
-/

namespace RecordTables
namespace Instance

/-- After the events `before`, the registration of `p` and the events `later`, the set of `p` is the
last that was registered as the module, and the module was not required since the first one was. -/
structure Awaits (i : Instance) (m : String) (before : List Event) (p : Provision)
    (later : List Event) : Prop where
  keepsLibrary : .remove "package" ∉ before ++ .inject p :: later
  installs : (i.run before).Installs p m
  latest : ∀ q past future, later = past ++ .inject q :: future →
    ¬(i.run (before ++ .inject p :: past)).Installs q m
  first : ∀ name past future, before ++ .inject p :: later = past ++ .require name :: future →
    SameName name m → ¬i.HasInstalled m past

/-- The module is required then, and whenever it is required again, whatever has happened since, it is
the same table with the classes that the set has had as globals. -/
def Supplies (i : Instance) (m : String) (before : List Event) (p : Provision)
    (later : List Event) : Prop :=
  ∃ module, (i.run (before ++ .inject p :: later)).required (Text.bytesOf m) = .ok (.table module) ∧
    ∀ events,
      let k := i.run (before ++ .inject p :: later ++ .require (Text.bytesOf m) :: events)
      k.required (Text.bytesOf m) = .ok (.table module) ∧
        (i.run (before ++ [.inject p])).Gathers p.set k module

section

variable {i : Instance} {libraries : List Library} {m : String} {p : Provision}

theorem equipped_of_addLibraries (h : created.addLibraries libraries = .ok i) : i.Equipped := by
  have hloaded := loaded_of_addLibraries h
  obtain ⟨_, hrequire, _⟩ := packageLibrary_of_addLibraries h
  exact ⟨hloaded.plainGlobals, hloaded.library.imp_right Or.inl, hrequire,
    hloaded.hasPackage.preloadPlain⟩

theorem moduleKey_bytesOf (h : 0 ∉ Text.bytesOf m) : moduleKey (Text.bytesOf m) = .ofText m :=
  congrArg Value.string (cutAtZero_eq_self_iff.2 h)

theorem Gathers.of_table_eq {j k k' : Instance} {s : TableSet} {module : TableRef}
    (h : j.Gathers s k module) (htable : k'.table module = k.table module) :
    j.Gathers s k' module := by
  have hget : ∀ key, k'.rawGet module key = k.rawGet module key := by
    intro key
    rw [rawGet, htable]
    rfl
  refine ⟨fun t ht => ?_, fun key hkey => ?_⟩
  · obtain ⟨c, hglobal, hclass, hentry⟩ := h.entries t ht
    exact ⟨c, hglobal, hclass, (hget _).trans hentry⟩
  · rw [hget]
    exact h.nothingElse key hkey

/-- Two modules of the same classes have the same entries. -/
theorem Gathers.rawGet_eq {j j' k : Instance} {s : TableSet} {r r' : TableRef} (h : j.Gathers s k r)
    (h' : j'.Gathers s k r') (hsame : ∀ t ∈ s.tables, j.global t.name = j'.global t.name)
    (key : Value) : k.rawGet r key = k.rawGet r' key := by
  by_cases hkey : ∃ t ∈ s.tables, key = .ofText t.name
  · obtain ⟨t, ht, rfl⟩ := hkey
    obtain ⟨c, hglobal, _, hget⟩ := h.entries t ht
    obtain ⟨c', hglobal', _, hget'⟩ := h'.entries t ht
    rw [hget, hget', ← hglobal, ← hglobal', hsame t ht]
  · have hnone : ∀ t ∈ s.tables, key ≠ .ofText t.name :=
      fun t ht heq => hkey ⟨t, ht, heq⟩
    rw [h.nothingElse key hnone, h'.nothingElse key hnone]

theorem Equipped.run_requireModule_of_waiting (hi : i.Equipped) (hm : 0 ∉ Text.bytesOf m)
    (hnew : i.rawGet loaded (.ofText m) = .nil) {module : TableRef}
    (hloader : i.rawGet preload (.ofText m) = .function (.loader module)) :
    (requireModule (Text.bytesOf m)).run.run i =
      (.ok (.table module), i.rawSet loaded (.ofText m) (.table module)) := by
  rw [← moduleKey_bytesOf hm] at hnew hloader ⊢
  refine hi.canRequire.run_requireModule_of_loader ?_ hloader
  rw [hnew]
  nofun

/-- A module that is loaded is what `require` gives ever after. -/
theorem Equipped.required_of_loaded (hi : i.Equipped) (hm : 0 ∉ Text.bytesOf m)
    {module : TableRef} (hloaded : i.rawGet loaded (.ofText m) = .table module)
    (events : List Event) : (i.run events).required (Text.bytesOf m) = .ok (.table module) := by
  have hstill := hi.module_run events (by rw [hloaded]; rfl)
  rw [hloaded, ← moduleKey_bytesOf hm] at hstill
  rw [required, run_requireModule_of_loaded (by rw [hstill]; rfl), hstill]

theorem supplies_of_awaits {before later : List Event} (h : created.addLibraries libraries = .ok i)
    (hlibrary : .package ∈ libraries) (hnew : i.rawGet loaded (.ofText m) = .nil)
    (hnames : p.set.names.Nodup) (hm : 0 ∉ Text.bytesOf m) (hawaits : i.Awaits m before p later) :
    i.Supplies m before p later := by
  have hi := equipped_of_addLibraries h
  obtain ⟨hpackage, _, hpreload⟩ := packageLibrary_of_addLibraries h
  rw [if_pos hlibrary] at hpackage
  have hbefore : (i.run before).global "package" = .table package := by
    rw [← hpackage]
    refine hi.global_run (by rw [hpackage]; nofun) fun hmem => ?_
    exact hawaits.keepsLibrary (List.mem_append_left _ hmem)
  obtain ⟨module, hlow, hthere, hloader, hgathers⟩ :=
    (hi.run before).installed hbefore hnames hawaits.installs
  have hrun : ∀ events, i.run (before ++ .inject p :: events) =
      (i.run (before ++ [.inject p])).run events := by
    intro events
    rw [← run_append, List.append_assoc]
    rfl
  have hwaits := (hi.unloaded_run hnew (hpreload _) hawaits.first).1
  have hlatest : ∀ q past future, later = past ++ .inject q :: future →
      ¬((i.run (before ++ [.inject p])).run past).Installs q m := by
    intro q past future heq
    rw [← hrun]
    exact hawaits.latest q past future heq
  rw [hrun] at hwaits
  rw [← show i.run (before ++ [.inject p]) = (inject p (i.run before)).2 from
    run_concat i before _] at hthere hloader hgathers
  have hj : (i.run (before ++ [.inject p])).Equipped := hi.run _
  generalize hregistered : i.run (before ++ [.inject p]) = j at *
  have hk := hj.run later
  -- when it is required first, its loader is still there
  have hfirst := hk.run_requireModule_of_waiting hm hwaits
    ((hj.loader_run hlatest).trans hloader)
  refine ⟨module, ?_, fun events => ?_⟩
  · rw [hrun, required, hfirst]
  · have hlater : i.run (before ++ .inject p :: later ++ .require (Text.bytesOf m) :: events) =
        (j.run (later ++ [.require (Text.bytesOf m)])).run events := by
      rw [← run_append, ← hrun]
      simp
    have hloaded : (j.run (later ++ [.require (Text.bytesOf m)])).rawGet loaded (.ofText m) =
        .table module := by
      have hsize := hk.there (r := loaded) (by decide)
      rw [run_concat, step, hfirst, rawGet, table_rawSet hsize, if_pos rfl,
        LuaTable.rawGet_rawSet_self]
    simp only [hlater, hregistered]
    refine ⟨(hj.run _).required_of_loaded hm hloaded events, hgathers.of_table_eq ?_⟩
    rw [← run_append]
    exact hj.table_run _ hlow hthere

/-- Without the library, asking for a module changes the log alone. -/
theorem Equipped.inject_without_library (hi : i.Equipped) (hnone : i.global "package" = .nil)
    {s : TableSet} (hname : "package" ∉ s.names) (m : String) :
    (inject ⟨s, some m⟩ i).1 = (inject ⟨s, none⟩ i).1 ∧
      (inject ⟨s, none⟩ i).2.SameTables (inject ⟨s, some m⟩ i).2 := by
  have hshows := hi.plainGlobals.showsNoMore s.names
  cases hfree : i.taken? s.names with
  | some name =>
    rw [inject_of_taken (p := ⟨s, some m⟩) hshows hfree,
      inject_of_taken (p := ⟨s, none⟩) hshows hfree]
    exact ⟨rfl, rfl, rfl, rfl⟩
  | none =>
    obtain ⟨classes, hbinds⟩ := binds_bindSet hi.plainGlobals.there s
    have hplain := (hi.plainGlobals.binds hbinds).index
    have hstill : (i.bindSet s).1.global "package" = .nil := by
      rw [hbinds.global_eq_of_not_mem hname, hnone]
    obtain ⟨_, hpreload⟩ := run_preloadModule_of_nil hplain hstill
    obtain ⟨_, hwith⟩ := inject_of_preloaded (p := ⟨s, some m⟩) hshows hfree rfl hpreload
    obtain ⟨_, hwithout⟩ := inject_of_no_module (p := ⟨s, none⟩) hshows hfree rfl
    rw [hwith, hwithout]
    exact ⟨rfl, rfl, rfl, rfl⟩

end

/-! ## Names with a zero -/

/-- An instance with the `package` library alone. -/
def packageHost : Instance := created.addLibrary .package

theorem packageHost_eq : created.addLibraries [.package] = .ok packageHost := rfl

theorem rawGet_loaded_packageHost (key : Value) :
    packageHost.rawGet loaded key = .nil ∨
      (key = .ofText "_G" ∧ packageHost.rawGet loaded key = .table globals) ∨
        key = .ofText "package" ∧ packageHost.rawGet loaded key = .table package := by
  have htable : packageHost.table loaded =
      LuaTable.empty.setNames [("_G", .table globals), ("package", .table package)] := rfl
  rw [rawGet, htable]
  rcases LuaTable.rawGet_setNames_or .empty
    [("_G", .table globals), ("package", .table package)] key with hnone | ⟨e, he, hkey, hget⟩
  · rw [hnone]
    exact Or.inl (LuaTable.rawGet_empty key)
  · simp only [List.mem_cons, List.not_mem_nil, or_false] at he
    rcases he with rfl | rfl
    · exact Or.inr (Or.inl ⟨hkey, hget⟩)
    · exact Or.inr (Or.inr ⟨hkey, hget⟩)

theorem awaits_packageHost (m : String) : packageHost.Awaits m [] ⟨nodeSet, some m⟩ [] := by
  refine ⟨by simp, ⟨rfl, rfl⟩, by simp, fun name past future heq _ hinstalled => ?_⟩
  obtain ⟨earlier, q, later, rfl, _⟩ := hinstalled
  have hlength := congrArg List.length heq
  simp at hlength
  omega

theorem ofText_ne_moduleKey {m : String} (hm : 0 ∈ Text.bytesOf m) (name : List UInt8) :
    .ofText m ≠ moduleKey name := by
  intro heq
  have hcut : Text.bytesOf m = cutAtZero name := Value.string.inj heq
  rw [hcut] at hm
  exact zero_not_mem_cutAtZero name hm

/-- A registration as a module whose name has a zero changes nothing that `require` looks at. -/
theorem Equipped.required_inject_of_zero {i : Instance} (hi : i.Equipped) {m : String}
    (hm : 0 ∈ Text.bytesOf m) (s : TableSet) (name : List UInt8) :
    (inject ⟨s, some m⟩ i).2.rawGet loaded (moduleKey name) = i.rawGet loaded (moduleKey name) ∧
      (inject ⟨s, some m⟩ i).2.rawGet preload (moduleKey name) =
        i.rawGet preload (moduleKey name) := by
  have h := hi.leads_inject ⟨s, some m⟩
  constructor
  · rcases h.modules (moduleKey name) with hsame | ⟨_, _, he, _⟩
    · exact hsame
    · cases he
  · rcases h.loaders (moduleKey name) with hsame | ⟨q, m', he, hkey, hq⟩
    · exact hsame
    · cases he
      cases hq.module
      exact absurd hkey.symm (ofText_ne_moduleKey hm name)

/-- A module whose name has a zero in it is registered, and cannot be required. -/
theorem not_supplies_of_zero {m : String} (hm : 0 ∈ Text.bytesOf m) :
    ¬packageHost.Supplies m [] ⟨nodeSet, some m⟩ [] := by
  rintro ⟨module, hrequired, hagain⟩
  obtain ⟨_, hgathers⟩ := hagain []
  have hi := equipped_of_addLibraries packageHost_eq
  have hj : (inject ⟨nodeSet, some m⟩ packageHost).2.Equipped := (hi.leads_inject _).equipped
  obtain ⟨hmodules, hloader⟩ := hi.required_inject_of_zero hm nodeSet (Text.bytesOf m)
  have hother : ∀ name, name ≠ "node_t" →
      ∀ t ∈ nodeSet.tables, Value.ofText name ≠ .ofText t.name := by
    intro name hname t ht heq
    rw [List.mem_singleton.1 ht] at heq
    exact hname (Value.ofText_inj.1 heq)
  change (inject ⟨nodeSet, some m⟩ packageHost).2.required (Text.bytesOf m) = _ at hrequired
  by_cases hloaded : isTrue ((inject ⟨nodeSet, some m⟩ packageHost).2.rawGet loaded
      (moduleKey (Text.bytesOf m)))
  · rw [required, run_requireModule_of_loaded hloaded, hmodules] at hrequired
    have hfound := Except.ok.inj hrequired
    rcases rawGet_loaded_packageHost (moduleKey (Text.bytesOf m)) with hnil | ⟨_, hget⟩ | ⟨_, hget⟩
    · rw [hnil] at hfound
      cases hfound
    · cases hget.symm.trans hfound
      have hversion := hgathers.nothingElse _ (hother "_VERSION" (by decide))
      have hthere : packageHost.global "_VERSION" = .ofText "Lua 5.4" := rfl
      have hkept : packageHost.global "_VERSION" ≠ .nil := by
        rw [hthere]
        exact Value.noConfusion
      rw [← global, hi.global_run hkept (by simp), hthere] at hversion
      cases hversion
    · cases hget.symm.trans hfound
      have hpath := hgathers.nothingElse _ (hother "path" (by decide))
      rw [rawGet, (hi.run _).canRequire.packageTable] at hpath
      cases hpath
  · rw [required, hj.canRequire.run_requireModule_of_nil hloaded hloader] at hrequired
    cases hrequired

/-- Exactly the modules whose names have no zero are supplied by `require` once they are registered.
A registration that is refused for a taken name leaves the instance as it is.  Without the library a
module makes no difference to what becomes of a registration. -/
theorem modules_required (m : String) :
    ((∀ libraries i, created.addLibraries libraries = .ok i → .package ∈ libraries →
        i.rawGet loaded (.ofText m) = .nil → ∀ d before p later,
          TableSet.ofDeclarations d = .ok p.set → i.Awaits m before p later →
            i.Supplies m before p later) ↔ 0 ∉ Text.bytesOf m) ∧
    ∀ libraries i, created.addLibraries libraries = .ok i → ∀ events,
      (∀ p name, (inject p (i.run events)).1 = .error (.nameCollision name) →
        (inject p (i.run events)).2 = i.run events) ∧
      (.package ∉ libraries → (∀ p, .inject p ∈ events → "package" ∉ p.set.names) →
        ∀ s : TableSet, "package" ∉ s.names →
          (inject ⟨s, some m⟩ (i.run events)).1 = (inject ⟨s, none⟩ (i.run events)).1 ∧
          ∀ name, (inject ⟨s, some m⟩ (i.run events)).2.global name =
            (inject ⟨s, none⟩ (i.run events)).2.global name) := by
  refine ⟨⟨fun h hm => ?_, fun hm libraries i hi hlibrary hnew d before p later hp hawaits => ?_⟩,
    fun libraries i h events => ⟨fun p name hrefused => ?_, fun hlibrary hnever s hs => ?_⟩⟩
  · refine not_supplies_of_zero hm (h [.package] packageHost packageHost_eq List.mem_cons_self ?_
      nodeDeclarations [] ⟨nodeSet, some m⟩ [] rfl (awaits_packageHost m))
    rcases rawGet_loaded_packageHost (.ofText m) with hnil | ⟨heq, _⟩ | ⟨heq, _⟩
    · exact hnil
    · rw [Value.ofText_inj.1 heq] at hm
      exact absurd hm (by decide)
    · rw [Value.ofText_inj.1 heq] at hm
      exact absurd hm (by decide)
  · exact supplies_of_awaits hi hlibrary hnew (wellFormed_of_resolves hp).names hm hawaits
  · have hk := (equipped_of_addLibraries h).run events
    exact inject_eq_of_nameCollision (hk.plainGlobals.showsNoMore _) hrefused
  · have hi := equipped_of_addLibraries h
    have hnone := (packageLibrary_of_addLibraries h).1
    rw [if_neg hlibrary] at hnone
    obtain ⟨houtcome, hsame⟩ :=
      (hi.run events).inject_without_library (hi.no_global_run hnone hnever) hs m
    exact ⟨houtcome, fun name => hsame.rawGet_eq globals (.ofText name)⟩

theorem modules_required_nodes :
    created.addLibraries [.package] = .ok packageHost ∧ created.addLibraries [] = .ok created ∧
      TableSet.ofDeclarations nodeDeclarations = .ok nodeSet ∧
      packageHost.Supplies "nodes" [.require (Text.bytesOf "nodes")] ⟨nodeSet, some "nodes"⟩
        [.remove "node_t"] ∧
      (inject ⟨nodeSet, some "nodes"⟩ (packageHost.run [.inject ⟨nodeSet, none⟩])).2 =
        packageHost.run [.inject ⟨nodeSet, none⟩] ∧
      (inject ⟨nodeSet, some "nodes"⟩ created).1 = (inject ⟨nodeSet, none⟩ created).1 := by
  have haccepted : TableSet.ofDeclarations nodeDeclarations = .ok nodeSet := rfl
  have hnone : created.addLibraries [] = .ok created := rfl
  have hawaits : packageHost.Awaits "nodes" [.require (Text.bytesOf "nodes")]
      ⟨nodeSet, some "nodes"⟩ [.remove "node_t"] := by
    refine ⟨by simp, ⟨rfl, rfl⟩, fun q past future heq => ?_, fun name past future heq _ h => ?_⟩
    · rcases past with _ | ⟨_, _ | _⟩ <;> simp at heq
    · -- before the one module that is required nothing was registered
      obtain ⟨earlier, q, later, rfl, _⟩ := h
      rcases earlier with _ | ⟨_, _ | ⟨_, _ | _⟩⟩ <;> simp at heq
      rcases later with _ | ⟨_, _ | _⟩ <;> simp at heq
  obtain ⟨hsupplies, hothers⟩ := modules_required "nodes"
  refine ⟨packageHost_eq, hnone, haccepted, ?_, ?_, ?_⟩
  · exact hsupplies.2 (by decide) [.package] packageHost packageHost_eq List.mem_cons_self rfl
      nodeDeclarations _ ⟨nodeSet, some "nodes"⟩ _ haccepted hawaits
  · exact (hothers [.package] packageHost packageHost_eq [.inject ⟨nodeSet, none⟩]).1
      ⟨nodeSet, some "nodes"⟩ "node_t" rfl
  · exact ((hothers [] created hnone []).2 (by decide) (by simp) nodeSet (by decide)).1

/-- The module is registered under its whole name, and asked for by a part of it. -/
theorem module_not_found :
    created.addLibraries [.package] = .ok packageHost ∧
      TableSet.ofDeclarations nodeDeclarations = .ok nodeSet ∧
      packageHost.rawGet loaded (.ofText "a\x00b") = .nil ∧
      (inject ⟨nodeSet, some "a\x00b"⟩ packageHost).1 = .ok () ∧
      (packageHost.run [.inject ⟨nodeSet, some "a\x00b"⟩]).required (Text.bytesOf "a\x00b") =
        .error (.runtime "module 'a' not found:") :=
  ⟨rfl, rfl, rfl, rfl, rfl⟩

end Instance
end RecordTables
