import RecordTables.Proofs.Instance.Classes
import RecordTables.Proofs.Instance.Run

/-!
Runs of registrations.

A run begins with an instance and its libraries; then sets are put into it one after another, and in
between the functions of the classes are called.  A registration that fails leaves the globals and
the loaders of modules as they were, with one exception: where a module is asked for and `package` is
a class in place of the library, the classes of the set are bound before the failure.
-/

namespace RecordTables
namespace Instance

/-- The record that a call has made, beside the class that made it. -/
def credits (c : TableRef) : Role → Except LuaError Value → List (RecordRef × TableRef)
  | .create, .ok (.record r) => [(r, c)]
  | .call, .ok (.record r) => [(r, c)]
  | _, _ => []

/-- What a call of a function of a class ends with, and the instance that it leaves behind. -/
def called (i : Instance) (c : TableRef) (t : Table) (role : Role) (args : List Value) :
    Except LuaError Value × Instance :=
  (callFunction (.accessor c t role) args).run.run i

/-- Instances that registrations lead to, and the records made so far with their classes.  Any set may
be registered, whether that succeeds or not, and any function of a class may be called. -/
inductive Registering : Instance → List (RecordRef × TableRef) → Prop
  | loaded {libraries : List Library} {i : Instance}
      (h : created.addLibraries libraries = .ok i) : Registering i []
  | inject {i : Instance} {made : List (RecordRef × TableRef)} {d : Declarations} {p : Provision}
      (h : Registering i made) (hp : TableSet.ofDeclarations d = .ok p.set) :
      Registering (inject p i).2 made
  | items {i : Instance} {made : List (RecordRef × TableRef)} (h : Registering i made)
      (items : List Value) : Registering (i.newTable (.ofItems items)).1 made
  | call {i : Instance} {made : List (RecordRef × TableRef)} {c : TableRef} {t : Table}
      (h : Registering i made) (hc : i.Constructs c t) (role : Role) (args : List Value) :
      Registering (i.called c t role args).2 (made ++ credits c role (i.called c t role args).1)

section

variable {i : Instance} {made : List (RecordRef × TableRef)}

theorem keeps_called (i : Instance) (c : TableRef) (t : Table) (role : Role) (args : List Value) :
    i.Keeps (i.called c t role args).2 := keeps_useClass i t role args

theorem keeps_items (i : Instance) (items : List Value) :
    i.Keeps (i.newTable (.ofItems items)).1 := keeps_newTable i fun _ => rfl

theorem Registering.prepared (h : Registering i made) : i.Prepared := by
  induction h with
  | loaded h => exact (loaded_of_addLibraries h).prepared
  | @inject i _ d p _ hp ih =>
    have hinjects := injects_inject ih.plainGlobals ih.loadersApart p
    exact ih.injects (wellFormed_of_resolves hp).names hinjects
  | @items i _ _ items ih => exact (keeps_items i items).prepared ih
  | @call i _ c t _ _ role args ih => exact (keeps_called i c t role args).prepared ih

end

/-! ## Failed registrations -/

/-- The globals and the loaders of modules are what they were. -/
structure SameNamespace (i j : Instance) : Prop where
  globals : ∀ key, j.rawGet globals key = i.rawGet globals key
  names : j.globalNames = i.globalNames
  loaders : ∀ key, j.rawGet preload key = i.rawGet preload key

/-- The class of the name `package` stands where the library would be, and a module is asked for
beside a set that is not empty and has free names. -/
structure MistakesPackage (i : Instance) (p : Provision) : Prop where
  tables : p.set.tables ≠ []
  module : p.module ≠ none
  free : ∀ name ∈ p.set.names, i.global name = .nil
  noLibrary : i.global "package" ≠ .table package
  isClass : "package" ∈ p.set.names ∨ i.global "package" ≠ .nil

section

variable {i k : Instance} {p : Provision} {module : TableRef} {classes : List (String × TableRef)}

/-- Without tables there is nothing to bind. -/
theorem Binds.sameNamespace (hbinds : i.Binds p.set k module classes) (hi : i.Prepared)
    (hempty : p.set.tables = []) : i.SameNamespace k := by
  have hglobals := hbinds.globalsTable
  have hholds := hbinds.holds
  rw [hempty, List.forall₂_nil_left_iff] at hholds
  rw [hholds] at hglobals
  have hsame : k.table globals = i.table globals := hglobals
  have hpreload := hbinds.old preload
    (Nat.lt_of_lt_of_le (by decide) hi.hasPackage.size) (by decide)
  refine ⟨fun key => ?_, ?_, fun key => ?_⟩
  · unfold rawGet
    rw [hsame]
  · unfold globalNames
    rw [hsame]
  · unfold rawGet
    rw [hpreload]

/-- With tables, a class becomes a global that was none before. -/
theorem Binds.not_sameNamespace (hbinds : i.Binds p.set k module classes)
    (hnames : p.set.names.Nodup) (hfree : i.taken? p.set.names = none)
    (htables : p.set.tables ≠ []) : ¬i.SameNamespace k := by
  intro hsame
  obtain ⟨t, ht⟩ := List.exists_mem_of_ne_nil _ htables
  obtain ⟨c, hc, hname, _⟩ := hbinds.class_of_table ht
  have hglobal : k.global t.name = i.global t.name := hsame.globals _
  rw [taken?_eq_none_iff.1 hfree t.name (List.mem_map_of_mem ht), ← hname,
    hbinds.global_eq hnames hc] at hglobal
  cases hglobal

/-- Where `package` has no table for loaders although it is a global, it is a class. -/
theorem Prepared.package_isClass (hi : i.Prepared) (hbinds : i.Binds p.set k module classes)
    (hnames : p.set.names.Nodup) (hfree : i.taken? p.set.names = none)
    (hnil : k.global "package" ≠ .nil)
    (hpackage : ∀ q l, k.global "package" = .table q → k.rawGet q (.ofText "preload") ≠ .table l) :
    i.global "package" ≠ .table package ∧
      ("package" ∈ p.set.names ∨ i.global "package" ≠ .nil) := by
  constructor
  · intro hlibrary
    have hkept := hbinds.global_eq_of_ne_nil hfree (by rw [hlibrary]; nofun)
    refine hpackage package preload (hkept.trans hlibrary) ?_
    exact (hi.binds hbinds hnames hfree).hasPackage.preloadEntry
  · rcases hbinds.rawGet_globals_or (.ofText "package") with hsame | ⟨c, hc, heq, _⟩
    · exact Or.inr fun hglobal => hnil (hsame.trans hglobal)
    · refine Or.inl ?_
      rw [Value.ofText_inj.1 heq, ← hbinds.names_eq]
      exact List.mem_map_of_mem hc

end

/-- A registration that fails leaves everything as it was, unless it takes a class for the `package`
library. -/
theorem failed_inject_iff {i : Instance} {made : List (RecordRef × TableRef)}
    (h : Registering i made) {d : Declarations} {p : Provision}
    (hp : TableSet.ofDeclarations d = .ok p.set) {e : RegistrationError}
    (hfail : (inject p i).1 = .error e) :
    i.SameNamespace (inject p i).2 ↔ ¬i.MistakesPackage p := by
  have hi := h.prepared
  have hinjects := injects_inject hi.plainGlobals hi.loadersApart p
  have hnames : p.set.names.Nodup := (wellFormed_of_resolves hp).names
  rw [hfail] at hinjects
  generalize (inject p i).2 = j at hinjects ⊢
  cases hinjects with
  | collided htaken =>
    refine ⟨fun _ hmistakes => ?_, fun _ => ⟨fun _ => rfl, rfl, fun _ => rfl⟩⟩
    rw [taken?_eq_none_iff.2 hmistakes.free] at htaken
    cases htaken
  | failed hfree hbinds hmodule hnil hpackage =>
    constructor
    · intro hsame hmistakes
      exact hbinds.not_sameNamespace hnames hfree hmistakes.tables hsame
    · intro hmistakes
      refine hbinds.sameNamespace hi ?_
      by_contra htables
      obtain ⟨hlibrary, hclass⟩ := hi.package_isClass hbinds hnames hfree hnil hpackage
      have hasked : p.module ≠ none := by
        rw [hmodule]
        nofun
      exact hmistakes ⟨htables, hasked, taken?_eq_none_iff.1 hfree, hlibrary, hclass⟩

theorem registering_created : Registering created [] :=
  have hloaded : created.addLibraries [] = .ok created := rfl
  .loaded hloaded

/-- A table whose name is that of the library. -/
def packageDeclarations : Declarations where
  read := [⟨"parcel", "package", []⟩]
  definition := []

def packageSet : TableSet := ⟨[⟨"parcel", "package", .read, []⟩]⟩

theorem failed_inject_iff_package :
    Registering created [] ∧ TableSet.ofDeclarations packageDeclarations = .ok packageSet ∧
      (inject ⟨packageSet, some "parcels"⟩ created).1 =
        .error (.lua (.conversion "nil" "table" none)) ∧
      (created.SameNamespace (inject ⟨packageSet, some "parcels"⟩ created).2 ↔
        ¬created.MistakesPackage ⟨packageSet, some "parcels"⟩) := by
  have haccepted : TableSet.ofDeclarations packageDeclarations = .ok packageSet := rfl
  have hfail : (inject ⟨packageSet, some "parcels"⟩ created).1 =
      .error (.lua (.conversion "nil" "table" none)) := rfl
  exact ⟨registering_created, haccepted, hfail,
    failed_inject_iff (p := ⟨packageSet, some "parcels"⟩) registering_created haccepted hfail⟩

/-- A registration that fails and leaves a class behind. -/
theorem package_bound_by_failure :
    Registering created [] ∧ TableSet.ofDeclarations packageDeclarations = .ok packageSet ∧
      (∃ e, (inject ⟨packageSet, some "parcels"⟩ created).1 = .error (.lua e)) ∧
      created.global "package" = .nil ∧
      (inject ⟨packageSet, some "parcels"⟩ created).2.global "package" ≠ .nil := by
  refine ⟨registering_created, rfl, ⟨_, rfl⟩, rfl, ?_⟩
  intro h
  cases h

end Instance
end RecordTables
