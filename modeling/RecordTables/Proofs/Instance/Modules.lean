import RecordTables.Proofs.Instance.Registration
import RecordTables.Proofs.Instance.Requiring

/-!
Which module a name stands for.

Sets are registered, modules are required, and globals are removed, in any order.  What `require` gives
is decided by three tables: the modules that are loaded, the loaders that are preloaded, and the module
itself.  `Leads` says what one event does to them.  Over a run, a registered module waits among the
loaders until it is required, unless another registration takes its place; once required, it stays.
-/

namespace RecordTables
namespace Instance

/-! ## Events -/

/-- What happens to an instance that has its libraries. -/
inductive Event where
  | inject (p : Provision)
  | require (name : List UInt8)
  | remove (name : String)

/-- The instance after an event. -/
def step (i : Instance) : Event → Instance
  | .inject p => (inject p i).2
  | .require name => ((requireModule name).run.run i).2
  | .remove name => i.setGlobal name .nil

/-- The instance after events in order. -/
def run (i : Instance) (events : List Event) : Instance := events.foldl step i

theorem run_append (i : Instance) (events later : List Event) :
    i.run (events ++ later) = (i.run events).run later :=
  List.foldl_append

/-- What `require` answers. -/
def required (i : Instance) (name : List UInt8) : Except LuaError Value :=
  ((requireModule name).run.run i).1

/-- The set is registered, and as the module. -/
structure Installs (i : Instance) (p : Provision) (m : String) : Prop where
  module : p.module = some m
  ok : (inject p i).1 = .ok ()

/-- A module has the classes that a set had as globals in the instance `j`, and nothing else. -/
structure Gathers (j : Instance) (s : TableSet) (k : Instance) (module : TableRef) : Prop where
  entries : ∀ t ∈ s.tables, ∃ c, j.global t.name = .table c ∧ j.HoldsClass c t ∧
    k.rawGet module (.ofText t.name) = .table c
  nothingElse : ∀ key, (∀ t ∈ s.tables, key ≠ .ofText t.name) → k.rawGet module key = .nil

/-! ## One event -/

/-- An instance into which sets can be put and from which modules can be required. -/
structure Equipped (i : Instance) : Prop where
  plainGlobals : i.PlainGlobals
  known : i.PackageKnown
  canRequire : i.CanRequire
  preloadPlain : (i.table preload).metatable = none

/-- What an event may do: a module is loaded if its loader is there, and a loader is preloaded by a
registration that succeeds.  Apart from that, and from the globals, tables stay as they are. -/
structure Leads (i : Instance) (e : Event) (j : Instance) : Prop where
  equipped : j.Equipped
  size : i.tables.size ≤ j.tables.size
  old : ∀ r : TableRef, r.index < i.tables.size → r ≠ globals → r ≠ loaded → r ≠ preload →
    j.table r = i.table r
  modules : ∀ key, j.rawGet loaded key = i.rawGet loaded key ∨
    ∃ name module, e = .require name ∧ key = moduleKey name ∧ ¬isTrue (i.rawGet loaded key) ∧
      i.rawGet preload key = .function (.loader module)
  loaders : ∀ key, j.rawGet preload key = i.rawGet preload key ∨
    ∃ p m, e = .inject p ∧ key = .ofText m ∧ i.Installs p m
  names : ∀ name, (i.global name ≠ .nil ∨ ∀ p, e = .inject p → name ∉ p.set.names) →
    e ≠ .remove name → j.global name = i.global name

section

variable {i j k : Instance} {p : Provision} {s : TableSet} {module : TableRef}
  {classes : List (String × TableRef)} {m : String}

theorem Binds.global_eq_of_not_mem (hbinds : i.Binds s k module classes) {name : String}
    (h : name ∉ s.names) : k.global name = i.global name := by
  refine hbinds.rawGet_globals_of_ne fun c hc heq => h ?_
  rw [Value.ofText_inj.1 heq, ← hbinds.names_eq]
  exact List.mem_map_of_mem hc

theorem Equipped.hasPackage (hi : i.Equipped) : i.HasPackage := by
  have hentry : i.rawGet package (.ofText "preload") = .table preload := by
    rw [rawGet, hi.canRequire.packageTable]
    rfl
  refine ⟨hi.canRequire.size, ?_, hi.preloadPlain, hentry⟩
  rw [hi.canRequire.packageTable]
  rfl

theorem Equipped.there (hi : i.Equipped) {r : TableRef} (hr : r.index < 6) :
    r.index < i.tables.size :=
  Nat.lt_of_lt_of_le hr hi.canRequire.size

/-- What a registration leaves as it was, whatever becomes of it.  Only one that succeeds adds to the
loaders, and only the loader of its module. -/
structure Spares (i : Instance) (p : Provision) (outcome : Except RegistrationError Unit)
    (j : Instance) : Prop where
  size : i.tables.size ≤ j.tables.size
  plainGlobals : j.PlainGlobals
  known : j.PackageKnown
  names : ∀ name, i.global name ≠ .nil ∨ name ∉ p.set.names → j.global name = i.global name
  old : ∀ r : TableRef, r.index < i.tables.size → r ≠ globals → r ≠ preload →
    j.table r = i.table r
  loaders : j.table preload = i.table preload ∨
    ∃ m module, p.module = some m ∧ outcome = .ok () ∧
      j.table preload = (i.table preload).rawSet (.ofText m) (.function (.loader module))

theorem Equipped.injects (hi : i.Equipped) {outcome : Except RegistrationError Unit}
    (h : i.Injects p outcome j) : i.Spares p outcome j := by
  have hbound : ∀ {k module classes}, i.taken? p.set.names = none →
      i.Binds p.set k module classes → k.PlainGlobals ∧ k.PackageKnown ∧
        (∀ name, i.global name ≠ .nil ∨ name ∉ p.set.names → k.global name = i.global name) ∧
        k.table preload = i.table preload := by
    intro k module classes hfree hbinds
    refine ⟨hi.plainGlobals.binds hbinds, hi.known.binds hi.hasPackage hbinds, fun name h => ?_, ?_⟩
    · rcases h with hne | hnot
      · exact hbinds.global_eq_of_ne_nil hfree hne
      · exact hbinds.global_eq_of_not_mem hnot
    · exact hbinds.old preload (hi.there (by decide)) (by decide)
  cases h with
  | collided =>
    exact ⟨Nat.le_refl _, hi.plainGlobals, hi.known, fun _ _ => rfl, fun _ _ _ _ => rfl,
      Or.inl rfl⟩
  | failed hfree hbinds =>
    obtain ⟨hplain, hknown, hglobal, hpreload⟩ := hbound hfree hbinds
    exact ⟨hbinds.size_le, hplain, hknown, hglobal, fun r hr hne _ => hbinds.old r hr hne,
      Or.inl hpreload⟩
  | bound hfree hbinds _ hj =>
    obtain ⟨hplain, hknown, hglobal, hpreload⟩ := hbound hfree hbinds
    refine ⟨?_, hj.keeps.plainGlobals hplain, hj.keeps.packageKnown hplain hknown,
      fun name h => ?_,
      fun r hr hne _ => ?_, Or.inl ?_⟩
    · rw [hj.tables]
      exact hbinds.size_le
    · rw [global, hj.rawGet_eq]
      exact hglobal name h
    · rw [hj.table_eq, hbinds.old r hr hne]
    · rw [hj.table_eq, hpreload]
  | @preloaded k _ module q l classes m hfree hbinds hmodule hq hl hj =>
    obtain ⟨hplain, hknown, hglobal, hpreload⟩ := hbound hfree hbinds
    obtain ⟨rfl, rfl⟩ := hknown.loaders_eq (hi.hasPackage.binds hbinds) hq hl
    have hthere : preload.index < k.tables.size :=
      Nat.lt_of_lt_of_le (hi.there (by decide)) hbinds.size_le
    have htable := table_rawSet hthere (.ofText m) (.function (.loader module))
    refine ⟨?_, hj.keeps.plainGlobals (hplain.rawSet (by decide) _ _),
      hj.keeps.packageKnown (hplain.rawSet (by decide) _ _)
        (hknown.rawSet (by decide) (by decide) _ _), fun name h => ?_, fun r hr hne hpre => ?_,
      Or.inr ⟨m, module, hmodule, rfl, ?_⟩⟩
    · rw [hj.tables]
      exact Nat.le_trans hbinds.size_le (Nat.le_of_eq (size_rawSet k _ _ _).symm)
    · rw [global, hj.rawGet_eq, rawGet_rawSet_of_ne k (by decide)]
      exact hglobal name h
    · rw [hj.table_eq, htable, if_neg hpre, hbinds.old r hr hne]
    · rw [hj.table_eq, htable, if_pos rfl, hpreload]

theorem Equipped.loadersApart (hi : i.Equipped) : i.LoadersApart :=
  hi.known.loadersApart hi.hasPackage

theorem Equipped.spares (hi : i.Equipped) (p : Provision) :
    i.Spares p (inject p i).1 (inject p i).2 :=
  hi.injects (injects_inject hi.plainGlobals hi.loadersApart p)

theorem Spares.canRequire {outcome : Except RegistrationError Unit} (h : i.Spares p outcome j)
    (hi : i.Equipped) : j.CanRequire ∧ (j.table preload).metatable = none := by
  have hold : ∀ r : TableRef, r.index < 6 → r ≠ globals → r ≠ preload → j.table r = i.table r :=
    fun r hr => h.old r (hi.there hr)
  have hloaders : (∀ key, j.rawGet preload key = .nil ∨
      ∃ module, j.rawGet preload key = .function (.loader module)) ∧
        (j.table preload).metatable = none := by
    rcases h.loaders with hsame | ⟨m, module, _, _, hset⟩
    · simp only [rawGet, hsame]
      exact ⟨hi.canRequire.loaders, hi.preloadPlain⟩
    · refine ⟨fun key => ?_, ?_⟩
      · rw [rawGet, hset]
        by_cases hkey : key = .ofText m
        · rw [hkey, LuaTable.rawGet_rawSet_self]
          exact Or.inr ⟨module, rfl⟩
        · rw [LuaTable.rawGet_rawSet_ofText_of_ne hkey]
          exact hi.canRequire.loaders key
      · rw [hset, LuaTable.metatable_rawSet]
        exact hi.preloadPlain
  refine ⟨⟨Nat.le_trans hi.canRequire.size h.size, ?_, ?_, hloaders.1⟩, hloaders.2⟩
  · rw [hold package (by decide) (by decide) (by decide), hi.canRequire.packageTable]
  · rw [hold searchers (by decide) (by decide) (by decide), hi.canRequire.searchersTable]

theorem Equipped.leads_inject (hi : i.Equipped) (p : Provision) :
    i.Leads (.inject p) (inject p i).2 := by
  have h := hi.spares p
  obtain ⟨hrequire, hplain⟩ := h.canRequire hi
  have hloaded := h.old loaded (hi.there (by decide)) (by decide) (by decide)
  refine ⟨⟨h.plainGlobals, h.known, hrequire, hplain⟩, h.size,
    fun r hr hglobals _ hpreload => h.old r hr hglobals hpreload, fun key => Or.inl ?_,
    fun key => ?_, fun name hname _ => h.names name (hname.imp_right fun hnot => hnot p rfl)⟩
  · rw [rawGet, hloaded]
    rfl
  · rcases h.loaders with hsame | ⟨m, module, hmodule, hok, hset⟩
    · rw [rawGet, hsame]
      exact Or.inl rfl
    · by_cases hkey : key = .ofText m
      · exact Or.inr ⟨p, m, rfl, hkey, hmodule, hok⟩
      · rw [rawGet, hset, LuaTable.rawGet_rawSet_ofText_of_ne hkey]
        exact Or.inl rfl

/-- An event that sets one key of the globals or of the loaded modules. -/
theorem Equipped.rawSet (hi : i.Equipped) {r : TableRef} (hr : r = globals ∨ r = loaded)
    (key value : Value) (hglobals : (i.rawSet r key value).PlainGlobals)
    (hknown : (i.rawSet r key value).PackageKnown) : (i.rawSet r key value).Equipped := by
  have hold : ∀ other, other ≠ globals → other ≠ loaded →
      (i.rawSet r key value).table other = i.table other := by
    intro other hother hother'
    refine table_setTable_of_ne i _ ?_
    rintro rfl
    exact hr.elim hother hother'
  have hpreload := hold preload (by decide) (by decide)
  refine ⟨hglobals, hknown, ⟨?_, ?_, ?_, fun key => ?_⟩, ?_⟩
  · rw [size_rawSet]
    exact hi.canRequire.size
  · rw [hold package (by decide) (by decide), hi.canRequire.packageTable]
  · rw [hold searchers (by decide) (by decide), hi.canRequire.searchersTable]
  · rw [rawGet, hpreload]
    exact hi.canRequire.loaders key
  · rw [hpreload]
    exact hi.preloadPlain

theorem Equipped.leads_require (hi : i.Equipped) (name : List UInt8) :
    i.Leads (.require name) ((requireModule name).run.run i).2 := by
  have same : i.Leads (.require name) i :=
    ⟨hi, Nat.le_refl _, fun _ _ _ _ _ => rfl, fun _ => Or.inl rfl, fun _ => Or.inl rfl,
      fun _ _ _ => rfl⟩
  by_cases hloaded : isTrue (i.rawGet loaded (moduleKey name))
  · rw [run_requireModule_of_loaded hloaded]
    exact same
  · rcases hi.canRequire.loaders (moduleKey name) with hnil | ⟨module, hloader⟩
    · rw [hi.canRequire.run_requireModule_of_nil hloaded hnil]
      exact same
    · rw [hi.canRequire.run_requireModule_of_loader hloaded hloader]
      have hother : ∀ r, r ≠ loaded →
          (i.rawSet loaded (moduleKey name) (.table module)).table r = i.table r :=
        fun r hr => table_setTable_of_ne i _ hr
      refine ⟨hi.rawSet (Or.inr rfl) _ _ (hi.plainGlobals.rawSet (by decide) _ _)
        (hi.known.rawSet (by decide) (by decide) _ _), ?_, fun r _ _ hr _ => hother r hr,
        fun key => ?_, fun key => Or.inl ?_, fun global _ _ => ?_⟩
      · rw [size_rawSet]
      · by_cases hkey : key = moduleKey name
        · rw [hkey]
          exact Or.inr ⟨name, module, rfl, rfl, hloaded, hloader⟩
        · have hthere := hi.there (r := loaded) (by decide)
          rw [rawGet, table_rawSet hthere, if_pos rfl, LuaTable.rawGet_rawSet_string_of_ne hkey]
          exact Or.inl rfl
      · exact rawGet_rawSet_of_ne i (by decide) _ _ key
      · exact rawGet_rawSet_of_ne i (by decide) _ _ (.ofText global)

theorem Equipped.leads_remove (hi : i.Equipped) (name : String) :
    i.Leads (.remove name) (i.setGlobal name .nil) := by
  have hglobal := global_setGlobal hi.plainGlobals.there name .nil
  have hknown : (i.setGlobal name .nil).PackageKnown := by
    rw [PackageKnown, hglobal]
    split
    · exact Or.inl rfl
    · refine hi.known.imp_right (Or.imp_right fun hclass => ?_)
      obtain ⟨c, t, hget, hindex, hclass⟩ := hclass
      exact ⟨c, t, hget, hindex, hclass.rawSet hindex (by decide) _ _⟩
  refine ⟨hi.rawSet (Or.inl rfl) _ _ (hi.plainGlobals.setGlobal name .nil) hknown, ?_,
    fun r _ hr _ _ => table_setGlobal_of_ne i name .nil hr, fun key => Or.inl ?_,
    fun key => Or.inl ?_, fun global _ hne => ?_⟩
  · rw [setGlobal, size_rawSet]
  · exact rawGet_rawSet_of_ne i (by decide) _ _ key
  · exact rawGet_rawSet_of_ne i (by decide) _ _ key
  · rw [hglobal, if_neg]
    rintro rfl
    exact hne rfl

/-- What any event does. -/
theorem Equipped.leads (hi : i.Equipped) (e : Event) : i.Leads e (i.step e) := by
  cases e with
  | inject p => exact hi.leads_inject p
  | require name => exact hi.leads_require name
  | remove name => exact hi.leads_remove name

/-- The classes of a set that was registered are the globals of their names. -/
theorem Equipped.hasClasses (hi : i.Equipped) (hnames : p.set.names.Nodup)
    (h : i.Injects p (.ok ()) j) : ∀ t ∈ p.set.tables, ∃ c, j.global t.name = .table c ∧
      j.HoldsClass c t ∧ 6 ≤ c.index := by
  have hsix := hi.canRequire.size
  intro t ht
  cases h with
  | bound _ hbinds _ hj =>
    obtain ⟨c, hc, hname, hlow, _, hclass⟩ := hbinds.class_of_table ht
    refine ⟨c.2, ?_, hj.keeps.holdsClass hclass, by omega⟩
    rw [global, hj.rawGet_eq, ← hname]
    exact hbinds.global_eq hnames hc
  | @preloaded k _ module q l classes m hfree hbinds hmodule hq hl hj =>
    obtain ⟨rfl, rfl⟩ :=
      (hi.known.binds hi.hasPackage hbinds).loaders_eq (hi.hasPackage.binds hbinds) hq hl
    obtain ⟨c, hc, hname, hlow, _, hclass⟩ := hbinds.class_of_table ht
    refine ⟨c.2, ?_, hj.keeps.holdsClass (hclass.rawSet (by omega) (by decide) _ _), by omega⟩
    rw [global, hj.rawGet_eq, rawGet_rawSet_of_ne k (by decide), ← hname]
    exact hbinds.global_eq hnames hc

/-- The module that is made for a set has the classes that the set has as globals. -/
theorem Binds.gathers (hbinds : i.Binds s k module classes) (hnames : s.names.Nodup)
    (hclasses : ∀ t ∈ s.tables, ∃ c, j.global t.name = .table c ∧ j.HoldsClass c t)
    (hglobals : ∀ key, j.rawGet globals key = k.rawGet globals key)
    (hmodule : ∀ key, j.rawGet module key = k.rawGet module key) : j.Gathers s j module := by
  refine ⟨fun t ht => ?_, fun key hkey => ?_⟩
  · obtain ⟨c, hglobal, hclass⟩ := hclasses t ht
    obtain ⟨e, he, hname, _⟩ := hbinds.class_of_table ht
    refine ⟨c, hglobal, hclass, ?_⟩
    rw [hmodule, ← hglobal, global, hglobals, ← hname, hbinds.rawGet_module_eq hnames he]
    exact (hbinds.global_eq hnames he).symm
  · rw [hmodule]
    rcases hbinds.rawGet_module_or key with hnil | ⟨c, hc, heq, _⟩
    · exact hnil
    · obtain ⟨t, ht, hname, _⟩ := hbinds.class_of_mem hc
      rw [hname] at heq
      exact absurd heq (hkey t ht)

/-- Where the library is there, a registration as a module preloads the module with the classes. -/
theorem Equipped.installed (hi : i.Equipped) (hlibrary : i.global "package" = .table package)
    (hnames : p.set.names.Nodup) (h : i.Installs p m) :
    ∃ module : TableRef, 6 ≤ module.index ∧ module.index < (inject p i).2.tables.size ∧
      (inject p i).2.rawGet preload (.ofText m) = .function (.loader module) ∧
      (inject p i).2.Gathers p.set (inject p i).2 module := by
  have hinjects := injects_inject hi.plainGlobals hi.loadersApart p
  have hkept := (hi.spares p).names "package" (Or.inl (by rw [hlibrary]; nofun))
  rw [hlibrary] at hkept
  rw [h.ok] at hinjects
  generalize (inject p i).2 = j at hinjects hkept ⊢
  have hclasses := hi.hasClasses hnames hinjects
  cases hinjects with
  | @bound k _ _ _ _ _ hnone hj =>
    have hglobal : k.global "package" = .table package := by
      rw [global, ← hj.rawGet_eq]
      exact hkept
    rcases hnone with hnone | hnil
    · rw [h.module] at hnone
      cases hnone
    · rw [hglobal] at hnil
      cases hnil
  | @preloaded k _ module q l classes m' hfree hbinds hmodule hq hl hj =>
    cases h.module.symm.trans hmodule
    obtain ⟨rfl, rfl⟩ :=
      (hi.known.binds hi.hasPackage hbinds).loaders_eq (hi.hasPackage.binds hbinds) hq hl
    obtain ⟨hlow, hsize⟩ := hbinds.size
    have hsix := hi.canRequire.size
    have hthere : preload.index < k.tables.size := by
      show 2 < k.tables.size
      omega
    have hget : ∀ r key, r ≠ preload → j.rawGet r key = k.rawGet r key := by
      intro r key hr
      rw [hj.rawGet_eq, rawGet_rawSet_of_ne k hr]
    have hhigh : module ≠ preload := by
      rintro rfl
      exact absurd (Nat.le_trans hsix hlow) (by decide)
    refine ⟨module, by omega, ?_, ?_, hbinds.gathers hnames (fun t ht => ?_)
      (fun key => hget globals key (by decide)) fun key => hget module key hhigh⟩
    · rw [hj.tables, size_rawSet, hsize]
      exact Nat.lt_succ_self _
    · rw [hj.rawGet_eq, rawGet, table_rawSet hthere, if_pos rfl, LuaTable.rawGet_rawSet_self]
    · obtain ⟨c, hglobal, hclass, _⟩ := hclasses t ht
      exact ⟨c, hglobal, hclass⟩

/-! ## Runs -/

theorem run_concat (i : Instance) (events : List Event) (e : Event) :
    i.run (events ++ [e]) = (i.run events).step e :=
  run_append i events [e]

theorem Equipped.run (hi : i.Equipped) (events : List Event) : (i.run events).Equipped := by
  induction events using List.reverseRecOn with
  | nil => exact hi
  | append_singleton events e ih =>
    rw [run_concat]
    exact (ih.leads e).equipped

theorem Equipped.size_run (hi : i.Equipped) (events : List Event) :
    i.tables.size ≤ (i.run events).tables.size := by
  induction events using List.reverseRecOn with
  | nil => exact Nat.le_refl _
  | append_singleton events e ih =>
    rw [run_concat]
    exact Nat.le_trans ih ((hi.run events).leads e).size

/-- A table behind those of the libraries stays as it is. -/
theorem Equipped.table_run (hi : i.Equipped) (events : List Event) {r : TableRef}
    (hlow : 6 ≤ r.index) (hr : r.index < i.tables.size) :
    (i.run events).table r = i.table r := by
  have hne : ∀ other : TableRef, other.index < 6 → r ≠ other := by
    rintro other hother rfl
    omega
  induction events using List.reverseRecOn with
  | nil => rfl
  | append_singleton events e ih =>
    have hsize := Nat.lt_of_lt_of_le hr (hi.size_run events)
    rw [run_concat, ((hi.run events).leads e).old r hsize (hne _ (by decide)) (hne _ (by decide))
      (hne _ (by decide)), ih]

theorem Equipped.global_run (hi : i.Equipped) {name : String} (hglobal : i.global name ≠ .nil)
    {events : List Event} (hkept : .remove name ∉ events) :
    (i.run events).global name = i.global name := by
  induction events using List.reverseRecOn with
  | nil => rfl
  | append_singleton events e ih =>
    rw [List.mem_append, List.mem_singleton, not_or] at hkept
    have hsame := ih hkept.1
    rw [run_concat, ((hi.run events).leads e).names name _ (Ne.symm hkept.2), hsame]
    rw [hsame]
    exact Or.inl hglobal

theorem Equipped.no_global_run (hi : i.Equipped) {name : String} (hglobal : i.global name = .nil)
    {events : List Event} (hnever : ∀ p, .inject p ∈ events → name ∉ p.set.names) :
    (i.run events).global name = .nil := by
  induction events using List.reverseRecOn with
  | nil => exact hglobal
  | append_singleton events e ih =>
    have hnone := ih fun p hp => hnever p (List.mem_append_left _ hp)
    rw [run_concat]
    by_cases hremove : e = .remove name
    · rw [hremove, step, global_setGlobal (hi.run events).plainGlobals.there, if_pos rfl]
    · rw [((hi.run events).leads e).names name _ hremove, hnone]
      refine Or.inr fun p hp => hnever p ?_
      rw [hp]
      exact List.mem_append_right _ List.mem_cons_self

/-- A class whose global is not removed stays the class of that name. -/
theorem Equipped.hasClasses_run (hi : i.Equipped) (hnames : p.set.names.Nodup)
    (hok : (inject p i).1 = .ok ()) {events : List Event}
    (hkept : ∀ t ∈ p.set.tables, .remove t.name ∉ events) :
    ∀ t ∈ p.set.tables, ∃ c, (inject p i).2.global t.name = .table c ∧
      ((inject p i).2.run events).global t.name = .table c ∧
      ((inject p i).2.run events).HoldsClass c t := by
  have hinjects := injects_inject hi.plainGlobals hi.loadersApart p
  rw [hok] at hinjects
  have hj := (hi.leads (.inject p)).equipped
  intro t ht
  obtain ⟨c, hglobal, hclass, hlow⟩ := hi.hasClasses hnames hinjects t ht
  have hthere := hclass.there
  have hsame : ((inject p i).2.run events).global t.name = (inject p i).2.global t.name := by
    refine hj.global_run ?_ (hkept t ht)
    rw [step, hglobal]
    nofun
  refine ⟨c, hglobal, hsame.trans hglobal, hclass.of_eq (hj.size_run events) ?_ ?_⟩
  · exact hj.table_run events hlow (Nat.lt_of_succ_lt hthere)
  · exact hj.table_run events (Nat.le_succ_of_le hlow) hthere

/-- What is loaded stays loaded. -/
theorem Equipped.module_run (hi : i.Equipped) (events : List Event) {key : Value}
    (hloaded : isTrue (i.rawGet loaded key)) :
    (i.run events).rawGet loaded key = i.rawGet loaded key := by
  induction events using List.reverseRecOn with
  | nil => rfl
  | append_singleton events e ih =>
    rw [run_concat]
    rcases ((hi.run events).leads e).modules key with hsame | ⟨_, _, _, _, hnot, _⟩
    · rw [hsame, ih]
    · rw [ih] at hnot
      exact absurd hloaded hnot

/-- A loader stays until another module of its name is registered. -/
theorem Equipped.loader_run (hi : i.Equipped) {events : List Event}
    (hlatest : ∀ q past future, events = past ++ .inject q :: future →
      ¬(i.run past).Installs q m) :
    (i.run events).rawGet preload (.ofText m) = i.rawGet preload (.ofText m) := by
  induction events using List.reverseRecOn with
  | nil => rfl
  | append_singleton events e ih =>
    have hbefore := ih fun q past future heq => hlatest q past (future ++ [e]) (by simp [heq])
    rw [run_concat]
    rcases ((hi.run events).leads e).loaders (.ofText m) with hsame | ⟨q, m', rfl, heq, h⟩
    · rw [hsame, hbefore]
    · rw [← Value.ofText_inj.1 heq] at h
      exact absurd h (hlatest q events [] rfl)

/-- One of the events registers a set as the module. -/
def HasInstalled (i : Instance) (m : String) (events : List Event) : Prop :=
  ∃ past q future, events = past ++ .inject q :: future ∧ (i.run past).Installs q m

/-- The two names are one to `require`. -/
def SameName (name : List UInt8) (m : String) : Prop :=
  cutAtZero name = cutAtZero (Text.bytesOf m)

theorem sameName_of_moduleKey {name : List UInt8} (h : .ofText m = moduleKey name) :
    SameName name m := by
  have hbytes : Text.bytesOf m = cutAtZero name := Value.string.inj h
  rw [SameName, hbytes, cutAtZero_cutAtZero]

/-- A module that is not required is not loaded, and it is not preloaded unless it was registered. -/
theorem Equipped.unloaded_run (hi : i.Equipped) (hloaded : i.rawGet loaded (.ofText m) = .nil)
    (hpreload : i.rawGet preload (.ofText m) = .nil) {events : List Event}
    (hfirst : ∀ name past future, events = past ++ .require name :: future → SameName name m →
      ¬i.HasInstalled m past) :
    (i.run events).rawGet loaded (.ofText m) = .nil ∧
      ((i.run events).rawGet preload (.ofText m) = .nil ∨ i.HasInstalled m events) := by
  induction events using List.reverseRecOn with
  | nil => exact ⟨hloaded, Or.inl hpreload⟩
  | append_singleton events e ih =>
    obtain ⟨hnone, hwaits⟩ :=
      ih fun name past future heq => hfirst name past (future ++ [e]) (by simp [heq])
    have h := (hi.run events).leads e
    rw [run_concat]
    constructor
    · rcases h.modules (.ofText m) with hsame | ⟨name, module, rfl, hkey, _, hloader⟩
      · rw [hsame, hnone]
      · have hnot := hfirst name events [] rfl (sameName_of_moduleKey hkey)
        rw [hwaits.resolve_right hnot] at hloader
        cases hloader
    · rcases hwaits with hnil | ⟨past, q, future, rfl, hq⟩
      · rcases h.loaders (.ofText m) with hsame | ⟨q, m', rfl, heq, hq⟩
        · exact Or.inl (hsame.trans hnil)
        · rw [← Value.ofText_inj.1 heq] at hq
          exact Or.inr ⟨events, q, [], rfl, hq⟩
      · exact Or.inr ⟨past, q, future ++ [e], by simp, hq⟩

end
end Instance
end RecordTables
