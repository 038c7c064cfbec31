import RecordTables.Proofs.Instance.Loading

/-!
The classes of an instance.

No table name ever has two classes: each class is registered under the name of its table
(`ClassesHold`).  While sets can still be registered, this holds since a class is also the global of
that name, so that another set with the name is refused (`Prepared`).
-/

namespace RecordTables
namespace Instance

/-- A table is the class of a table of fields: its `new` makes records of them for it. -/
def Constructs (i : Instance) (c : TableRef) (t : Table) : Prop :=
  i.rawGet c (.ofText "new") = .function (.accessor c t .create)

/-- Every class is whole, stands behind the tables of the libraries, and is registered. -/
structure ClassesHold (i : Instance) : Prop where
  size : 6 ≤ i.tables.size
  classes : ∀ c t, i.Constructs c t →
    6 ≤ c.index ∧ i.HoldsClass c t ∧ i.classOf t.name = .ok c

/-- An instance into which sets can be put: every class is a global, and `package` is the library, a
class, or nothing. -/
structure Prepared (i : Instance) : Prop where
  plainGlobals : i.PlainGlobals
  hasPackage : i.HasPackage
  library : i.global "package" = .nil ∨ i.global "package" = .table package ∨
    ∃ c t, i.global "package" = .table c ∧ 6 ≤ c.index ∧ i.HoldsClass c t
  classesHold : i.ClassesHold
  bound : ∀ c t, i.Constructs c t → i.global t.name = .table c

/-- `package` is the library, a class, or nothing. -/
def PackageKnown (i : Instance) : Prop :=
  i.global "package" = .nil ∨ i.global "package" = .table package ∨
    ∃ c t, i.global "package" = .table c ∧ 6 ≤ c.index ∧ i.HoldsClass c t

section

variable {i j k : Instance} {c : TableRef} {t : Table}

theorem Constructs.unique {t' : Table} (h : i.Constructs c t) (h' : i.Constructs c t') : t = t' := by
  have hsame := h.symm.trans h'
  exact (Function.accessor.inj (Value.function.inj hsame)).2.1

theorem Constructs.of_rawGet_eq (h : j.Constructs c t)
    (heq : j.rawGet c (.ofText "new") = i.rawGet c (.ofText "new")) : i.Constructs c t :=
  heq.symm.trans h

/-- Two classes of one name are one class. -/
theorem ClassesHold.eq_of_name (h : i.ClassesHold) {c' : TableRef} {t' : Table}
    (hc : i.Constructs c t) (hc' : i.Constructs c' t') (hname : t.name = t'.name) : c = c' := by
  obtain ⟨_, _, hregistered⟩ := h.classes c t hc
  obtain ⟨_, _, hregistered'⟩ := h.classes c' t' hc'
  rw [hname, hregistered'] at hregistered
  exact (Except.ok.inj hregistered).symm

theorem ClassesHold.name_eq_iff (h : i.ClassesHold) {c' : TableRef} {t' : Table}
    (hc : i.Constructs c t) (hc' : i.Constructs c' t') : t.name = t'.name ↔ c' = c := by
  constructor
  · intro hname
    exact h.eq_of_name hc' hc hname.symm
  · rintro rfl
    exact congrArg Table.name (hc.unique hc')

theorem Loaded.prepared (h : i.Loaded) : i.Prepared := by
  have hnone : ∀ c t, ¬i.Constructs c t := fun c t hc => h.noAccessor c _ ⟨c, t, .create, hc⟩
  refine ⟨h.plainGlobals, h.hasPackage, h.library.imp_right Or.inl, ⟨h.hasPackage.size, ?_⟩, ?_⟩
  · exact fun c t hc => absurd hc (hnone c t)
  · exact fun c t hc => absurd hc (hnone c t)

/-! ## Calls -/

theorem Keeps.constructs_iff (h : i.Keeps j) : j.Constructs c t ↔ i.Constructs c t := by
  unfold Constructs
  by_cases hc : c.index < i.tables.size
  · rw [h.rawGet_eq hc]
  · have hle := Nat.le_of_not_lt hc
    rw [h.new c hle, rawGet_of_size_le hle]

theorem Keeps.classesHold (h : i.Keeps j) (hi : i.ClassesHold) : j.ClassesHold := by
  refine ⟨Nat.le_trans hi.size h.size, fun c t hc => ?_⟩
  obtain ⟨hlow, hclass, hregistered⟩ := hi.classes c t (h.constructs_iff.1 hc)
  refine ⟨hlow, h.holdsClass hclass, ?_⟩
  unfold classOf
  rw [h.classes]
  exact hregistered

theorem Keeps.plainGlobals (h : i.Keeps j) (hi : i.PlainGlobals) : j.PlainGlobals := by
  have hglobals := h.tables globals hi.there
  refine ⟨Nat.lt_of_lt_of_le hi.there h.size, ?_, fun name hname => ?_⟩
  · rw [hglobals.metatable]
    exact hi.plain
  · rw [hglobals.keys_eq] at hname
    rw [hglobals.rawGet_eq]
    exact hi.listed name hname

theorem Keeps.hasPackage (h : i.Keeps j) (hi : i.HasPackage) : j.HasPackage := by
  have hpackage : package.index < i.tables.size := Nat.lt_of_lt_of_le (by decide) hi.size
  have hpreload : preload.index < i.tables.size := Nat.lt_of_lt_of_le (by decide) hi.size
  refine ⟨Nat.le_trans hi.size h.size, ?_, ?_, ?_⟩
  · rw [(h.tables package hpackage).metatable]
    exact hi.packagePlain
  · rw [(h.tables preload hpreload).metatable]
    exact hi.preloadPlain
  · rw [h.rawGet_eq hpackage]
    exact hi.preloadEntry

theorem Keeps.packageKnown (h : i.Keeps j) (hi : i.PlainGlobals) (hknown : i.PackageKnown) :
    j.PackageKnown := by
  have hglobal : j.global "package" = i.global "package" := h.rawGet_eq hi.there _
  rw [PackageKnown, hglobal]
  refine hknown.imp_right (Or.imp_right fun hclass => ?_)
  obtain ⟨c, t, hget, hindex, hclass⟩ := hclass
  exact ⟨c, t, hget, hindex, h.holdsClass hclass⟩

theorem Keeps.prepared (h : i.Keeps j) (hi : i.Prepared) : j.Prepared := by
  have hglobal : ∀ name, j.global name = i.global name :=
    fun name => h.rawGet_eq hi.plainGlobals.there _
  constructor
  · exact h.plainGlobals hi.plainGlobals
  · exact h.hasPackage hi.hasPackage
  · exact h.packageKnown hi.plainGlobals hi.library
  · exact h.classesHold hi.classesHold
  · intro c t hc
    rw [hglobal]
    exact hi.bound c t (h.constructs_iff.1 hc)

/-! ## Registration -/

section

variable {s : TableSet} {module : TableRef} {classes : List (String × TableRef)}

/-- A class, once a set is bound, was there before or is one of the set. -/
theorem Binds.constructs_cases (hbinds : i.Binds s k module classes) (hi : i.Prepared)
    (hc : k.Constructs c t) : i.Constructs c t ∨
      t ∈ s.tables ∧ (t.name, c) ∈ classes ∧ i.tables.size ≤ c.index ∧ k.HoldsClass c t := by
  by_cases hold : c.index < i.tables.size
  · refine Or.inl ?_
    by_cases hglobals : c = globals
    · exfalso
      rw [hglobals] at hc
      rcases hbinds.rawGet_globals_or (.ofText "new") with hsame | ⟨_, _, _, hget⟩
      · have hlow := (hi.classesHold.classes globals t (hc.of_rawGet_eq hsame)).1
        exact absurd hlow (by decide)
      · unfold Constructs at hc
        rw [hget] at hc
        cases hc
    · refine hc.of_rawGet_eq ?_
      unfold rawGet
      rw [hbinds.old c hold hglobals]
  · have hle := Nat.le_of_not_lt hold
    have hsize : c.index < k.tables.size := by
      by_contra hnot
      unfold Constructs at hc
      rw [rawGet_of_size_le (Nat.le_of_not_lt hnot)] at hc
      cases hc
    unfold Constructs at hc
    rcases hbinds.new c hle hsize with rfl | ⟨e, he, hnew⟩
    · rcases hbinds.rawGet_module_or (.ofText "new") with hnil | ⟨_, _, _, hget⟩
      · rw [hnil] at hc
        cases hc
      · rw [hget] at hc
        cases hc
    · obtain ⟨t', ht', hname, _, _, hclass⟩ := hbinds.class_of_mem he
      rcases hnew with rfl | rfl
      · rcases hclass.member (.ofText "new") with hnil | ⟨role, hrole⟩
        · rw [hnil] at hc
          cases hc
        · rw [hrole] at hc
          have hsame : t' = t := (Function.accessor.inj (Value.function.inj hc)).2.1
          rw [← hsame, ← hname]
          exact Or.inr ⟨ht', he, hle, hclass⟩
      · rw [hclass.metaEntries, rawGet_classMetatable_eq_nil _ _ (by decide)] at hc
        cases hc

theorem Binds.table_eq_of_low (hbinds : i.Binds s k module classes) (hi : i.HasPackage)
    {r : TableRef} (hr : r.index < 6) (hne : r ≠ globals) : k.table r = i.table r :=
  hbinds.old r (Nat.lt_of_lt_of_le hr hi.size) hne

theorem Binds.holdsClass_of_high (hbinds : i.Binds s k module classes) (hc : 6 ≤ c.index)
    (h : i.HoldsClass c t) : k.HoldsClass c t := by
  refine hbinds.holdsClass h ?_
  rintro rfl
  exact absurd hc (by decide)

theorem HasPackage.binds (hi : i.HasPackage) (hbinds : i.Binds s k module classes) :
    k.HasPackage :=
  hi.of_table_eq hbinds.size_le (hbinds.table_eq_of_low hi (by decide) (by decide))
    (hbinds.table_eq_of_low hi (by decide) (by decide))

theorem PackageKnown.binds (h : i.PackageKnown) (hi : i.HasPackage)
    (hbinds : i.Binds s k module classes) : k.PackageKnown := by
  rcases hbinds.rawGet_globals_or (.ofText "package") with hsame | ⟨e, he, _, hget⟩
  · have hglobal : k.global "package" = i.global "package" := hsame
    unfold PackageKnown
    rw [hglobal]
    refine h.imp_right (Or.imp_right fun hclass => ?_)
    obtain ⟨c, t, hget, hindex, hclass⟩ := hclass
    exact ⟨c, t, hget, hindex, hbinds.holdsClass_of_high hindex hclass⟩
  · obtain ⟨t, _, _, hle, _, hclass⟩ := hbinds.class_of_mem he
    exact Or.inr (Or.inr ⟨e.2, t, hget, Nat.le_trans hi.size hle, hclass⟩)

theorem classOf_eq_ok_iff {name : String} :
    i.classOf name = .ok c ↔ i.classes.find? (classKey name) = some c := by
  unfold classOf
  cases i.classes.find? (classKey name) <;> simp

/-- Binding a set whose names are free gives no name a second class. -/
theorem Prepared.binds (hi : i.Prepared) (hbinds : i.Binds s k module classes)
    (hnames : s.names.Nodup) (hfree : i.taken? s.names = none) : k.Prepared := by
  have hclassNames : (classes.map (·.1)).Nodup := by
    rw [hbinds.names_eq]
    exact hnames
  have hmem : ∀ e ∈ classes, e.1 ∈ s.names := by
    intro e he
    rw [← hbinds.names_eq]
    exact List.mem_map_of_mem he
  -- a class that was there is a global, so its name is none of the set
  have hother : ∀ c t, i.Constructs c t → ∀ e ∈ classes, t.name ≠ e.1 := by
    intro c t hc e he heq
    have hglobal := hi.bound c t hc
    rw [heq, taken?_eq_none_iff.1 hfree e.1 (hmem e he)] at hglobal
    cases hglobal
  have hsize := Nat.le_trans hi.hasPackage.size hbinds.size_le
  constructor
  · exact hi.plainGlobals.binds hbinds
  · exact hi.hasPackage.binds hbinds
  · exact PackageKnown.binds hi.library hi.hasPackage hbinds
  · refine ⟨hsize, fun c t hc => ?_⟩
    rcases hbinds.constructs_cases hi hc with hc | ⟨_, he, hle, hclass⟩
    · obtain ⟨hindex, hclass, hregistered⟩ := hi.classesHold.classes c t hc
      refine ⟨hindex, hbinds.holdsClass_of_high hindex hclass, ?_⟩
      rw [classOf_eq_ok_iff] at hregistered ⊢
      rw [hbinds.others _ fun e he heq => hother c t hc e he (classKey_inj.1 heq)]
      exact hregistered
    · refine ⟨Nat.le_trans hi.hasPackage.size hle, hclass, ?_⟩
      rw [classOf_eq_ok_iff]
      exact hbinds.registered hclassNames _ he
  · intro c t hc
    rcases hbinds.constructs_cases hi hc with hc | ⟨_, he, _, _⟩
    · rw [← hi.bound c t hc]
      refine hbinds.rawGet_globals_of_ne fun e he heq => ?_
      exact hother c t hc e he (Value.ofText_inj.1 heq)
    · exact hbinds.global_eq hnames he

end

/-! ## Setting a name in a table of the libraries -/

section

variable {r : TableRef} {name : String} {value : Value}

theorem table_rawSet_of_low (i : Instance) (hr : r.index < 6) (key value : Value)
    {other : TableRef} (hother : 6 ≤ other.index) :
    (i.rawSet r key value).table other = i.table other := by
  refine table_setTable_of_ne i _ ?_
  rintro rfl
  exact absurd hother (Nat.not_le_of_lt hr)

theorem HoldsClass.rawSet (h : i.HoldsClass c t) (hc : 6 ≤ c.index) (hr : r.index < 6)
    (key value : Value) : (i.rawSet r key value).HoldsClass c t := by
  refine h.of_eq (Nat.le_of_eq (size_rawSet i r _ _).symm) ?_ ?_
  · exact table_rawSet_of_low i hr key value hc
  · exact table_rawSet_of_low i hr key value (Nat.le_succ_of_le hc)

theorem ClassesHold.constructs_rawSet_iff (hi : i.ClassesHold) (hr : r.index < 6)
    (hvalue : ∀ t, value ≠ .function (.accessor r t .create)) :
    (i.rawSet r (.ofText name) value).Constructs c t ↔ i.Constructs c t := by
  by_cases hc : c = r
  · have hnot : ¬i.Constructs c t := by
      intro h
      have hindex := (hi.classes c t h).1
      rw [hc] at hindex
      exact absurd hindex (Nat.not_le_of_lt hr)
    refine ⟨fun h => ?_, fun h => absurd h hnot⟩
    have hthere : r.index < i.tables.size := Nat.lt_of_lt_of_le hr hi.size
    unfold Constructs rawGet at h
    rw [hc, table_rawSet hthere, if_pos rfl] at h
    by_cases hname : Value.ofText "new" = .ofText name
    · rw [hname, LuaTable.rawGet_rawSet_self] at h
      exact absurd h (hvalue t)
    · rw [LuaTable.rawGet_rawSet_ofText_of_ne hname] at h
      rw [← hc] at h
      exact h
  · unfold Constructs
    have htable : (i.rawSet r (.ofText name) value).table c = i.table c :=
      table_setTable_of_ne i _ hc
    unfold rawGet
    rw [htable]

/-- Setting a name in a table of the libraries touches no class. -/
theorem ClassesHold.rawSet (hi : i.ClassesHold) (hr : r.index < 6)
    (hvalue : ∀ t, value ≠ .function (.accessor r t .create)) :
    (i.rawSet r (.ofText name) value).ClassesHold := by
  refine ⟨?_, fun c t hc => ?_⟩
  · rw [size_rawSet]
    exact hi.size
  · obtain ⟨hindex, hclass, hregistered⟩ :=
      hi.classes c t ((hi.constructs_rawSet_iff hr hvalue).1 hc)
    exact ⟨hindex, hclass.rawSet hindex hr _ value, hregistered⟩

theorem rawGet_rawSet_of_ne (i : Instance) {other : TableRef} (hother : other ≠ r)
    (key value wanted : Value) :
    (i.rawSet r key value).rawGet other wanted = i.rawGet other wanted :=
  congrArg (·.rawGet wanted) (table_setTable_of_ne i _ hother)

theorem PlainGlobals.rawSet (hi : i.PlainGlobals) (hr : r ≠ globals) (key value : Value) :
    (i.rawSet r key value).PlainGlobals :=
  hi.of_table_eq (Nat.le_of_eq (size_rawSet i r _ _).symm)
    (table_setTable_of_ne i _ (Ne.symm hr))

theorem PackageKnown.rawSet (h : i.PackageKnown) (hlow : r.index < 6) (hr : r ≠ globals)
    (key value : Value) : (i.rawSet r key value).PackageKnown := by
  unfold PackageKnown global
  rw [rawGet_rawSet_of_ne i (Ne.symm hr)]
  refine h.imp_right (Or.imp_right fun hclass => ?_)
  obtain ⟨c, t, hget, hindex, hclass⟩ := hclass
  exact ⟨c, t, hget, hindex, hclass.rawSet hindex hlow key value⟩

theorem HasPackage.rawSet_preload (hi : i.HasPackage) (name : String) (value : Value) :
    (i.rawSet preload (.ofText name) value).HasPackage := by
  have hpackage : (i.rawSet preload (.ofText name) value).table package = i.table package :=
    table_setTable_of_ne i _ (by decide)
  refine ⟨Nat.le_trans hi.size (Nat.le_of_eq (size_rawSet i preload _ _).symm), ?_, ?_, ?_⟩
  · rw [hpackage]
    exact hi.packagePlain
  · rw [table_rawSet (Nat.lt_of_lt_of_le (by decide) hi.size), if_pos rfl,
      LuaTable.metatable_rawSet]
    exact hi.preloadPlain
  · rw [rawGet_rawSet_of_ne i (by decide)]
    exact hi.preloadEntry

/-- Preloading a module touches the table for loaders only. -/
theorem Prepared.rawSet_preload (hi : i.Prepared) (name : String) (module : TableRef) :
    (i.rawSet preload (.ofText name) (.function (.loader module))).Prepared := by
  have hlow : preload.index < 6 := by decide
  have hvalue : ∀ t, Value.function (.loader module) ≠ .function (.accessor preload t .create) :=
    fun t => nofun
  constructor
  · exact hi.plainGlobals.rawSet (by decide) _ _
  · exact hi.hasPackage.rawSet_preload name _
  · exact PackageKnown.rawSet hi.library hlow (by decide) _ _
  · exact hi.classesHold.rawSet hlow hvalue
  · intro c t hc
    rw [global, rawGet_rawSet_of_ne i (by decide)]
    exact hi.bound c t ((hi.classesHold.constructs_rawSet_iff hlow hvalue).1 hc)

end

/-! ## Putting a set into an instance -/

theorem SameTables.keeps (h : i.SameTables j) : i.Keeps j :=
  keeps_of_tables_eq h.tables h.classes

/-- The table for loaders, if `package` has one, is that of the library. -/
theorem PackageKnown.loaders_eq (h : i.PackageKnown) (hi : i.HasPackage) {q l : TableRef}
    (hq : i.global "package" = .table q) (hl : i.rawGet q (.ofText "preload") = .table l) :
    q = package ∧ l = preload := by
  rcases h with hnil | hlibrary | ⟨c, t, hclassGlobal, _, hclass⟩
  · rw [hnil] at hq
    cases hq
  · cases hlibrary.symm.trans hq
    cases hi.preloadEntry.symm.trans hl
    exact ⟨rfl, rfl⟩
  · cases hclassGlobal.symm.trans hq
    rcases hclass.member (.ofText "preload") with hnil | ⟨role, hrole⟩
    · rw [hnil] at hl
      cases hl
    · rw [hrole] at hl
      cases hl

theorem PackageKnown.loadersApart (h : i.PackageKnown) (hi : i.HasPackage) : i.LoadersApart := by
  have hlow : ∀ {r : TableRef}, r.index < 6 → r.index < i.tables.size :=
    fun hr => Nat.lt_of_lt_of_le hr hi.size
  intro q hq
  have hloaders : ∀ l, i.rawGet q (.ofText "preload") = .table l →
      l ≠ globals ∧ l.index < i.tables.size ∧ i.Unguided l "__newindex" := by
    intro l hl
    obtain ⟨rfl, rfl⟩ := h.loaders_eq hi hq hl
    exact ⟨by decide, hlow (by decide), unguided_of_plain hi.preloadPlain _⟩
  rcases h with hnil | hlibrary | ⟨c, t, hclassGlobal, _, hclass⟩
  · rw [hnil] at hq
    cases hq
  · cases hlibrary.symm.trans hq
    exact ⟨hlow (by decide), unguided_of_plain hi.packagePlain _, hloaders⟩
  · cases hclassGlobal.symm.trans hq
    exact ⟨Nat.lt_of_succ_lt hclass.there, hclass.unguided (by decide), hloaders⟩

theorem Prepared.loaders_eq (hi : i.Prepared) {q l : TableRef}
    (hq : i.global "package" = .table q) (hl : i.rawGet q (.ofText "preload") = .table l) :
    q = package ∧ l = preload :=
  PackageKnown.loaders_eq hi.library hi.hasPackage hq hl

theorem Prepared.loadersApart (hi : i.Prepared) : i.LoadersApart :=
  PackageKnown.loadersApart hi.library hi.hasPackage

/-- Whatever becomes of it, a set can be put into the instance afterwards. -/
theorem Prepared.injects (hi : i.Prepared) {p : Provision} (hnames : p.set.names.Nodup)
    {outcome : Except RegistrationError Unit} (h : i.Injects p outcome j) : j.Prepared := by
  cases h with
  | collided => exact hi
  | bound hfree hbinds _ hj => exact hj.keeps.prepared (hi.binds hbinds hnames hfree)
  | @preloaded _ _ module _ _ _ name hfree hbinds _ hpackage hpreload hj =>
    have hk := hi.binds hbinds hnames hfree
    obtain ⟨rfl, rfl⟩ := hk.loaders_eq hpackage hpreload
    exact hj.keeps.prepared (hk.rawSet_preload name module)
  | failed hfree hbinds => exact hi.binds hbinds hnames hfree

end

end Instance
end RecordTables
