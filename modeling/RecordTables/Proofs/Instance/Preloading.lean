import RecordTables.Proofs.Instance.Injection

/-!
Where the loader of a module is stored.

Three accesses lead there: `package` is looked up in the globals, `preload` in what is found, and the
name of the module is set in what is found then.  `StoresApart` says that the first two change nothing
and that the third sets no more than this one entry, outside of the globals.  So it is whenever the
tables are plain (`LoadersApart.storesApart`).
-/

namespace RecordTables
namespace Instance

/-- The instance with the loader of a module under a name in a table. -/
def withLoader (k : Instance) (name : String) (module t : TableRef) : Instance :=
  k.rawSet t (.ofText name) (.function (.loader module))

/-- Assigning the loader of a module, where `package` has its `preload`, makes another instance. -/
def Assigns (k : Instance) (name : String) (module : TableRef) (j : Instance) : Prop :=
  ∃ q l, k.Finds globals "package" (.table q) ∧ k.Finds q "preload" (.table l) ∧
    (assign (.table l) (.ofText name) (.function (.loader module))).run.run k = (.ok (), j)

/-- The loader of a module is stored in a table. -/
def Stores (k : Instance) (name : String) (module t : TableRef) : Prop :=
  t.index < k.tables.size ∧ k.Assigns name module (k.withLoader name module t)

/-- A table other than the globals that was there before a set was bound, or is a class of that set. -/
def Apart (i : Instance) (s : TableSet) (t : TableRef) : Prop :=
  t ≠ globals ∧
    (t.index < i.tables.size ∨ ∃ name ∈ s.names, (i.bindSet s).1.global name = .table t)

/-- Once the set is bound, looking for the table for loaders changes nothing, and assigning the loader
there changes at most one table, by that entry. -/
structure StoresApart (i : Instance) (s : TableSet) (name : String) : Prop where
  package : ((index (.table globals) (.ofText "package")).run.run (i.bindSet s).1).2 =
    (i.bindSet s).1
  preload : ∀ q, (i.bindSet s).1.Finds globals "package" (.table q) →
    ((index (.table q) (.ofText "preload")).run.run (i.bindSet s).1).2 = (i.bindSet s).1
  loader : ∀ j, (i.bindSet s).1.Assigns name (i.bindSet s).2 j →
    j = (i.bindSet s).1 ∨
      ∃ t, i.Apart s t ∧ j = (i.bindSet s).1.withLoader name (i.bindSet s).2 t

section

variable {i k j j' : Instance} {s : TableSet} {name : String} {module t : TableRef}

theorem Assigns.unique (h : k.Assigns name module j) (h' : k.Assigns name module j') : j = j' := by
  obtain ⟨q, l, hq, hl, hrun⟩ := h
  obtain ⟨q', l', hq', hl', hrun'⟩ := h'
  cases hq.unique hq'
  cases hl.unique hl'
  exact congrArg Prod.snd (hrun.symm.trans hrun')

/-- A module is made available by assigning its loader, or is not, and then nothing has changed. -/
theorem StoresApart.assigns (h : i.StoresApart s name)
    (hrun : (preloadModule name (i.bindSet s).2).run.run (i.bindSet s).1 = (.ok (), j)) :
    ((∀ j', ¬(i.bindSet s).1.Assigns name (i.bindSet s).2 j') ∧ (i.bindSet s).1.SameTables j) ∨
      ∃ j', (i.bindSet s).1.Assigns name (i.bindSet s).2 j' ∧ j'.SameTables j := by
  obtain ⟨hpackage, hpreload, _⟩ := h
  generalize (i.bindSet s).1 = k at *
  generalize (i.bindSet s).2 = module at *
  unfold preloadModule at hrun
  obtain ⟨v, k', hfirst, hlibrary⟩ := run_bind_eq_ok hrun
  have hk : k = k' := hpackage.symm.trans (congrArg Prod.snd hfirst)
  subst hk
  cases v with
  | nil =>
    left
    cases hlibrary
    refine ⟨fun j' hassigns => ?_, sameTables_note _ _ _⟩
    obtain ⟨q, _, hq, _⟩ := hassigns
    cases Finds.unique hfirst hq
  | table q =>
    right
    obtain ⟨w, k', hsecond, hloaders⟩ := run_bind_eq_ok hlibrary
    have hk : k = k' := (hpreload q hfirst).symm.trans (congrArg Prod.snd hsecond)
    subst hk
    cases w with
    | table l =>
      obtain ⟨_, j', hthird, hnoted⟩ := run_bind_eq_ok hloaders
      cases hnoted
      exact ⟨j', ⟨q, l, hfirst, hsecond, hthird⟩, sameTables_note _ _ _⟩
    | _ => cases hloaders
  | _ => cases hlibrary

/-- Where the loader is stored, it can be found. -/
theorem Stores.rawGet_eq (h : k.Stores name module t) (hassigns : k.Assigns name module j')
    (hj : j'.SameTables j) : j.rawGet t (.ofText name) = .function (.loader module) := by
  obtain ⟨hsize, hstored⟩ := h
  rw [hj.rawGet_eq, hassigns.unique hstored]
  unfold withLoader rawGet
  rw [table_rawSet hsize, if_pos rfl]
  exact LuaTable.rawGet_rawSet_self _ _ _

/-- Among plain tables the loader ends up in `preload` itself. -/
theorem LoadersApart.storesApart (hl : i.LoadersApart) (hi : i.PlainGlobals) (hs : s.names.Nodup)
    (name : String) : i.StoresApart s name := by
  obtain ⟨classes, hbinds⟩ := binds_bindSet hi.there s
  have hpackage := finds_of_metaEntry (hi.binds hbinds).index "package"
  have hpreload : ∀ q, (i.bindSet s).1.Finds globals "package" (.table q) →
      (i.bindSet s).1.global "package" = .table q ∧
        (i.bindSet s).1.Finds q "preload" ((i.bindSet s).1.rawGet q (.ofText "preload")) := by
    intro q hq
    have hglobal := hpackage.unique hq
    have hunguided := (hl.binds hi hbinds hglobal).1
    exact ⟨hglobal, finds_of_metaEntry hunguided.metaEntry_eq_nil "preload"⟩
  refine ⟨congrArg Prod.snd hpackage, fun q hq => congrArg Prod.snd (hpreload q hq).2, ?_⟩
  intro j hassigns
  obtain ⟨q, l, hq, hfound, hrun⟩ := hassigns
  obtain ⟨hglobal, hloaders⟩ := hpreload q hq
  obtain ⟨hne, hunguided, hplace⟩ := (hl.binds hi hbinds hglobal).2 l (hloaders.unique hfound)
  right
  refine ⟨l, ⟨hne, ?_⟩, ?_⟩
  · cases hplace with
    | inl hold => exact Or.inl hold
    | inr hclass =>
      obtain ⟨c, hc, rfl⟩ := hclass
      refine Or.inr ⟨c.1, ?_, hbinds.global_eq hs hc⟩
      rw [← hbinds.names_eq]
      exact List.mem_map_of_mem hc
  · have hassign := run_assign_table hunguided.metaEntry_eq_nil name
      (.function (.loader (i.bindSet s).2))
    exact congrArg Prod.snd (hrun.symm.trans hassign)

end

end Instance
end RecordTables
