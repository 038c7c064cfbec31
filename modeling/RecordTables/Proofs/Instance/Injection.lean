import RecordTables.Proofs.Instance.Access
import RecordTables.Proofs.Instance.Binding

/-!
How putting a set into an instance can end.

`Injects` lists the ways: a name is taken, the classes are bound and nothing is preloaded, the module
is preloaded as well, or there is a `package` that is no library, and the classes stay bound although
the whole has failed.  `injects_inject` says that these are all, as long as no metatable interferes
with the globals and with the table for loaders.
-/

namespace RecordTables
namespace Instance

/-! ## Plain tables -/

/-- The globals are a table without a metatable, and every name that it lists has a value. -/
structure PlainGlobals (i : Instance) : Prop where
  there : globals.index < i.tables.size
  plain : (i.table globals).metatable = none
  listed : (i.table globals).Listed

/-- The metatable of a table, if it has one, is another table than the globals and has no entry under
the name: `__index` to guide look-ups, or `__newindex` to guide assignments. -/
def Unguided (i : Instance) (r : TableRef) (name : String) : Prop :=
  ∀ m, (i.table r).metatable = some m →
    m ≠ globals ∧ m.index < i.tables.size ∧ i.rawGet m (.ofText name) = .nil

/-- If `package` is a table, then no metatable guides look-ups in it or assignments to its `preload`,
and `preload` is not the table of globals. -/
def LoadersApart (i : Instance) : Prop :=
  ∀ q, i.global "package" = .table q → q.index < i.tables.size ∧ i.Unguided q "__index" ∧
    ∀ l, i.rawGet q (.ofText "preload") = .table l →
      l ≠ globals ∧ l.index < i.tables.size ∧ i.Unguided l "__newindex"

section

variable {i k : Instance} {r module : TableRef} {s : TableSet}
  {classes : List (String × TableRef)} {name : String}

theorem unguided_of_plain (h : (i.table r).metatable = none) (name : String) :
    i.Unguided r name := by
  intro m hm
  rw [h] at hm
  cases hm

theorem HoldsClass.unguided {t : Table} (h : i.HoldsClass r t)
    (hname : name ∉ ["__call", "__name", "__metatable"]) : i.Unguided r name := by
  intro m hm
  cases h.metatable.symm.trans hm
  refine ⟨?_, h.there, ?_⟩
  · intro heq
    exact absurd (congrArg TableRef.index heq) (Nat.succ_ne_zero _)
  · rw [h.metaEntries]
    exact rawGet_classMetatable_eq_nil r t hname

theorem Unguided.metaEntry_eq_nil (h : i.Unguided r name) :
    i.metaEntry (.table r) name = .nil := by
  cases hm : (i.table r).metatable with
  | none => exact metaEntry_of_plain hm name
  | some m =>
    rw [metaEntry_of_metatable hm]
    exact (h m hm).2.2

theorem PlainGlobals.index (h : i.PlainGlobals) : i.metaEntry (.table globals) "__index" = .nil :=
  metaEntry_of_plain h.plain _

theorem PlainGlobals.showsNoMore (h : i.PlainGlobals) (names : List String) :
    i.ShowsNoMore names :=
  showsNoMore_of_metaEntry h.index names

theorem PlainGlobals.binds (h : i.PlainGlobals) (hbinds : i.Binds s k module classes) :
    k.PlainGlobals := by
  refine ⟨Nat.lt_of_lt_of_le h.there hbinds.size_le, ?_, ?_⟩
  · rw [hbinds.globalsTable, LuaTable.metatable_setNames]
    exact h.plain
  · rw [hbinds.globalsTable]
    exact h.listed.setNames _

theorem Binds.metatable_eq (hbinds : i.Binds s k module classes) (hr : r.index < i.tables.size) :
    (k.table r).metatable = (i.table r).metatable := by
  by_cases hglobals : r = globals
  · rw [hglobals, hbinds.globalsTable, LuaTable.metatable_setNames]
  · rw [hbinds.old r hr hglobals]

theorem Unguided.binds (h : i.Unguided r name) (hbinds : i.Binds s k module classes)
    (hr : r.index < i.tables.size) : k.Unguided r name := by
  intro m hm
  rw [hbinds.metatable_eq hr] at hm
  obtain ⟨hne, hsize, hentry⟩ := h m hm
  refine ⟨hne, Nat.lt_of_lt_of_le hsize hbinds.size_le, ?_⟩
  unfold rawGet at hentry ⊢
  rw [hbinds.old m hsize hne]
  exact hentry

/-- Nothing that is a global already is bound to a class. -/
theorem Binds.global_eq_of_ne_nil (hbinds : i.Binds s k module classes)
    (hfree : i.taken? s.names = none) (h : i.global name ≠ .nil) :
    k.global name = i.global name := by
  rcases hbinds.rawGet_globals_or (.ofText name) with hsame | ⟨c, hc, heq, _⟩
  · exact hsame
  · have hname : name ∈ s.names := by
      rw [Value.ofText_inj.1 heq, ← hbinds.names_eq]
      exact List.mem_map_of_mem hc
    exact absurd (taken?_eq_none_iff.1 hfree name hname) h

/-- The table for loaders, once the set is bound: it was there before, or it is a class of the set. -/
theorem LoadersApart.binds (h : i.LoadersApart) (hi : i.PlainGlobals)
    (hbinds : i.Binds s k module classes) {q : TableRef} (hq : k.global "package" = .table q) :
    k.Unguided q "__index" ∧ ∀ l, k.rawGet q (.ofText "preload") = .table l →
      l ≠ globals ∧ k.Unguided l "__newindex" ∧
        (l.index < i.tables.size ∨ ∃ c ∈ classes, l = c.2) := by
  have hnew : ∀ c ∈ classes, c.2 ≠ globals ∧ k.Unguided c.2 "__newindex" := by
    intro c hc
    obtain ⟨t, _, _, hlow, _, hclass⟩ := hbinds.class_of_mem hc
    refine ⟨?_, hclass.unguided (by decide)⟩
    intro heq
    rw [heq] at hlow
    exact absurd hi.there (Nat.not_lt_of_le hlow)
  rcases hbinds.rawGet_globals_or (.ofText "package") with hsame | ⟨c, hc, _, hget⟩
  · obtain ⟨hsize, hplain, hloaders⟩ := h q (hsame.symm.trans hq)
    have hold : ∀ l, i.rawGet q (.ofText "preload") = .table l →
        l ≠ globals ∧ k.Unguided l "__newindex" ∧
          (l.index < i.tables.size ∨ ∃ c ∈ classes, l = c.2) := by
      intro l hl
      obtain ⟨hne, hlsize, hlplain⟩ := hloaders l hl
      exact ⟨hne, hlplain.binds hbinds hlsize, Or.inl hlsize⟩
    refine ⟨hplain.binds hbinds hsize, fun l hl => ?_⟩
    by_cases hglobals : q = globals
    · rw [hglobals] at hl hold
      rcases hbinds.rawGet_globals_or (.ofText "preload") with hsame | ⟨c, hc, _, hget⟩
      · exact hold l (hsame.symm.trans hl)
      · have hlc : l = c.2 := Value.table.inj (hl.symm.trans hget)
        rw [hlc]
        exact ⟨(hnew c hc).1, (hnew c hc).2, Or.inr ⟨c, hc, rfl⟩⟩
    · unfold rawGet at hl
      rw [hbinds.old q hsize hglobals] at hl
      exact hold l hl
  · have hqc : q = c.2 := Value.table.inj (hq.symm.trans hget)
    obtain ⟨t, _, _, _, _, hclass⟩ := hbinds.class_of_mem hc
    rw [hqc]
    refine ⟨hclass.unguided (by decide), fun l hl => ?_⟩
    rcases hclass.member (.ofText "preload") with hnil | ⟨role, hfunction⟩
    · rw [hl] at hnil
      cases hnil
    · rw [hl] at hfunction
      cases hfunction

end

/-! ## The ways to end -/

/-- Two instances differ at most in their logs and in what none of their tables knows. -/
structure SameTables (i j : Instance) : Prop where
  tables : j.tables = i.tables
  records : j.records = i.records
  classes : j.classes = i.classes

theorem sameTables_note (i : Instance) (level : Log.Level) (text : String) :
    i.SameTables (i.note level text) := ⟨rfl, rfl, rfl⟩

theorem SameTables.trans {i j k : Instance} (h : i.SameTables j) (h' : j.SameTables k) :
    i.SameTables k :=
  ⟨h'.tables.trans h.tables, h'.records.trans h.records, h'.classes.trans h.classes⟩

theorem SameTables.table_eq {i j : Instance} (h : i.SameTables j) (r : TableRef) :
    j.table r = i.table r := by
  unfold table
  rw [h.tables]

theorem SameTables.rawGet_eq {i j : Instance} (h : i.SameTables j) (r : TableRef) (key : Value) :
    j.rawGet r key = i.rawGet r key := by
  unfold rawGet
  rw [h.table_eq]

/-- How putting a set into an instance ends, and the instance that it leaves behind. -/
inductive Injects (i : Instance) (p : Provision) : Except RegistrationError Unit → Instance → Prop
  | collided {name : String} (h : i.taken? p.set.names = some name) :
      Injects i p (.error (.nameCollision name)) i
  | bound {k j : Instance} {module : TableRef} {classes : List (String × TableRef)}
      (hfree : i.taken? p.set.names = none) (hbinds : i.Binds p.set k module classes)
      (hnone : p.module = none ∨ k.global "package" = .nil) (hj : k.SameTables j) :
      Injects i p (.ok ()) j
  | preloaded {k j : Instance} {module q l : TableRef} {classes : List (String × TableRef)}
      {name : String} (hfree : i.taken? p.set.names = none)
      (hbinds : i.Binds p.set k module classes) (hmodule : p.module = some name)
      (hpackage : k.global "package" = .table q)
      (hpreload : k.rawGet q (.ofText "preload") = .table l)
      (hj : (k.rawSet l (.ofText name) (.function (.loader module))).SameTables j) :
      Injects i p (.ok ()) j
  | failed {k : Instance} {module : TableRef} {classes : List (String × TableRef)}
      {name : String} {e : LuaError} (hfree : i.taken? p.set.names = none)
      (hbinds : i.Binds p.set k module classes) (hmodule : p.module = some name)
      (hnil : k.global "package" ≠ .nil)
      (hpackage : ∀ q l, k.global "package" = .table q →
        k.rawGet q (.ofText "preload") ≠ .table l) :
      Injects i p (.error (.lua e)) k

section

variable {i j : Instance} {p : Provision} {name : String}

theorem inject_of_taken (hshows : i.ShowsNoMore p.set.names)
    (h : i.taken? p.set.names = some name) :
    inject p i = (.error (.nameCollision name), i) := by
  unfold inject
  rw [run_firstTaken hshows, h]

theorem inject_of_free (hshows : i.ShowsNoMore p.set.names)
    (h : i.taken? p.set.names = none) :
    inject p i =
      (((defineSet p).run.run i).1.mapError .lua, ((defineSet p).run.run i).2) := by
  unfold inject
  rw [run_firstTaken hshows, h]
  generalize hrun : (defineSet p).run.run i = out
  obtain ⟨outcome, j⟩ := out
  simp only [hrun]
  cases outcome <;> rfl

theorem inject_nameCollision_iff (hshows : i.ShowsNoMore p.set.names) (name : String) :
    (inject p i).1 = .error (.nameCollision name) ↔ i.taken? p.set.names = some name := by
  cases htaken : i.taken? p.set.names with
  | some taken =>
    rw [inject_of_taken hshows htaken]
    constructor
    · intro h
      cases h
      rfl
    · intro h
      cases h
      rfl
  | none =>
    rw [inject_of_free hshows htaken]
    refine iff_of_false (fun h => ?_) nofun
    cases hrun : ((defineSet p).run.run i).1 with
    | ok =>
      rw [hrun] at h
      cases h
    | error e =>
      rw [hrun] at h
      cases h

/-- A set that is refused for one of its names leaves everything as it was. -/
theorem inject_eq_of_nameCollision (hshows : i.ShowsNoMore p.set.names)
    (h : (inject p i).1 = .error (.nameCollision name)) : (inject p i).2 = i := by
  rw [inject_of_taken hshows ((inject_nameCollision_iff hshows name).1 h)]

theorem inject_of_no_module (hshows : i.ShowsNoMore p.set.names)
    (h : i.taken? p.set.names = none) (hmodule : p.module = none) :
    ∃ text, inject p i = (.ok (), (i.bindSet p.set).1.note .info text) := by
  refine ⟨s!"registered {p.set.size} tables", ?_⟩
  have hrun : (defineSet p).run.run i =
      (.ok (), (i.bindSet p.set).1.note .info s!"registered {p.set.size} tables") := by
    unfold defineSet
    rw [hmodule]
    rfl
  rw [inject_of_free hshows h, hrun]
  rfl

theorem run_defineSet_of_module (hmodule : p.module = some name) :
    (defineSet p).run.run i =
      (preloadModule name (i.bindSet p.set).2 >>= fun _ =>
        Action.change (·.note .info s!"registered {p.set.size} tables")).run.run
          (i.bindSet p.set).1 := by
  unfold defineSet
  rw [hmodule]
  rfl

theorem inject_of_preloaded (hshows : i.ShowsNoMore p.set.names)
    (h : i.taken? p.set.names = none) (hmodule : p.module = some name)
    (hrun : (preloadModule name (i.bindSet p.set).2).run.run (i.bindSet p.set).1 = (.ok (), j)) :
    ∃ text, inject p i = (.ok (), j.note .info text) := by
  refine ⟨s!"registered {p.set.size} tables", ?_⟩
  rw [inject_of_free hshows h, run_defineSet_of_module hmodule, run_bind_ok hrun]
  rfl

theorem inject_of_not_preloaded (hshows : i.ShowsNoMore p.set.names)
    (h : i.taken? p.set.names = none) (hmodule : p.module = some name) {e : LuaError}
    (hrun : (preloadModule name (i.bindSet p.set).2).run.run (i.bindSet p.set).1 = (.error e, j)) :
    inject p i = (.error (.lua e), j) := by
  rw [inject_of_free hshows h, run_defineSet_of_module hmodule, run_bind_error hrun]
  rfl

theorem injects_inject (hi : i.PlainGlobals) (hl : i.LoadersApart) (p : Provision) :
    i.Injects p (inject p i).1 (inject p i).2 := by
  have hshows := hi.showsNoMore p.set.names
  cases hfree : i.taken? p.set.names with
  | some name =>
    rw [inject_of_taken hshows hfree]
    exact .collided hfree
  | none =>
    obtain ⟨classes, hbinds⟩ := binds_bindSet hi.there p.set
    have hindexBound := (hi.binds hbinds).index
    cases hmodule : p.module with
    | none =>
      obtain ⟨text, hrun⟩ := inject_of_no_module hshows hfree hmodule
      rw [hrun]
      exact .bound hfree hbinds (Or.inl hmodule) (sameTables_note _ _ _)
    | some name =>
      by_cases hnil : (i.bindSet p.set).1.global "package" = .nil
      · obtain ⟨_, hpreload⟩ := run_preloadModule_of_nil hindexBound hnil
        obtain ⟨_, hrun⟩ := inject_of_preloaded hshows hfree hmodule hpreload
        rw [hrun]
        exact .bound hfree hbinds (Or.inr hnil)
          ((sameTables_note _ _ _).trans (sameTables_note _ _ _))
      · by_cases htable : ∃ q, (i.bindSet p.set).1.global "package" = .table q
        · obtain ⟨q, hq⟩ := htable
          obtain ⟨hplain, hloaders⟩ := hl.binds hi hbinds hq
          have hindexPackage := hplain.metaEntry_eq_nil
          by_cases hpreload : ∃ l, (i.bindSet p.set).1.rawGet q (.ofText "preload") = .table l
          · obtain ⟨l, hget⟩ := hpreload
            have hnewindex := (hloaders l hget).2.1.metaEntry_eq_nil
            obtain ⟨_, hpreload⟩ :=
              run_preloadModule_of_table hindexBound hq hindexPackage hget hnewindex
            obtain ⟨_, hrun⟩ := inject_of_preloaded hshows hfree hmodule hpreload
            rw [hrun]
            exact .preloaded hfree hbinds hmodule hq hget
              ((sameTables_note _ _ _).trans (sameTables_note _ _ _))
          · have hnone := not_exists.1 hpreload
            rw [inject_of_not_preloaded hshows hfree hmodule
              (run_preloadModule_of_no_loaders hindexBound hq hindexPackage hnone)]
            refine .failed hfree hbinds hmodule hnil fun q' l hq' => ?_
            rw [hq] at hq'
            cases hq'
            exact hnone l
        · have hnone := not_exists.1 htable
          rw [inject_of_not_preloaded hshows hfree hmodule
            (run_preloadModule_of_no_table hindexBound hnil hnone)]
          exact .failed hfree hbinds hmodule hnil fun q l hq => absurd hq (hnone q)

end

end Instance
end RecordTables
