import RecordTables.Instance.Registration
import RecordTables.Proofs.Instance.Calls

/-!
Access that no metatable has a say in.

Where the metatable of a table has no entry for it, a look-up gives what the table has, and an
assignment sets just that.  The steps of putting a set into an instance come down to such accesses.
-/

namespace RecordTables
namespace Instance

section

variable {i : Instance} {r : TableRef}

theorem metaEntry_of_plain (h : (i.table r).metatable = none) (name : String) :
    i.metaEntry (.table r) name = .nil := by
  unfold Instance.metaEntry metatable?
  simp only [h]
  rfl

theorem metaEntry_of_metatable {m : TableRef} (h : (i.table r).metatable = some m)
    (name : String) : i.metaEntry (.table r) name = i.rawGet m (.ofText name) := by
  unfold Instance.metaEntry metatable?
  simp only [h, Option.map_some, Option.getD_some]

theorem run_index_own (h : i.rawGet r key ≠ .nil) :
    (index (.table r) key).run.run i = (.ok (i.rawGet r key), i) := by
  have hlimit : index (.table r) key = indexWithin (1999 + 1) (.table r) key := rfl
  rw [hlimit, indexWithin, run_bind_ok (Action.run_getThe i)]
  simp only
  rw [if_pos h]
  rfl

theorem run_index_table (h : i.metaEntry (.table r) "__index" = .nil) (key : Value) :
    (index (.table r) key).run.run i = (.ok (i.rawGet r key), i) := by
  by_cases hown : i.rawGet r key = .nil
  · have hlimit : index (.table r) key = indexWithin (1999 + 1) (.table r) key := rfl
    rw [hlimit, indexWithin, run_bind_ok (Action.run_getThe i)]
    simp only
    rw [if_neg (not_not_intro hown), h, hown]
    rfl
  · exact run_index_own hown

theorem run_index_record (i : Instance) (r : RecordRef) (key : Value) :
    (index (.record r) key).run.run i = (i.member r key, i) := by
  have hlimit : index (.record r) key = indexWithin (1999 + 1) (.record r) key := rfl
  rw [hlimit, indexWithin, run_bind_ok (Action.run_getThe i)]
  rfl

theorem run_assign_table (h : i.metaEntry (.table r) "__newindex" = .nil) (name : String)
    (value : Value) :
    (assign (.table r) (.ofText name) value).run.run i =
      (.ok (), i.rawSet r (.ofText name) value) := by
  have hlimit : assign (.table r) (.ofText name) value =
      assignWithin (1999 + 1) (.table r) (.ofText name) value := rfl
  have hsetter : i.setter (.table r) (.ofText name) = .nil := by
    unfold setter
    simp only [h]
    split <;> rfl
  rw [hlimit, assignWithin, run_bind_ok (Action.run_getThe i)]
  simp only [hsetter]
  rfl

end

/-- The first of names that is a global. -/
def taken? (i : Instance) (names : List String) : Option String :=
  names.find? fun name => i.global name ≠ .nil

theorem taken?_eq_none_iff {i : Instance} {names : List String} :
    i.taken? names = none ↔ ∀ name ∈ names, i.global name = .nil := by
  unfold taken?
  rw [List.find?_eq_none]
  simp

/-- A look-up of a name in a table gives a value and changes nothing. -/
def Finds (i : Instance) (r : TableRef) (name : String) (v : Value) : Prop :=
  (index (.table r) (.ofText name)).run.run i = (.ok v, i)

theorem Finds.unique {i : Instance} {r : TableRef} {name : String} {v w : Value}
    (h : i.Finds r name v) (h' : i.Finds r name w) : v = w :=
  Except.ok.inj (congrArg Prod.fst (h.symm.trans h'))

theorem finds_of_metaEntry {i : Instance} {r : TableRef}
    (h : i.metaEntry (.table r) "__index" = .nil) (name : String) :
    i.Finds r name (i.rawGet r (.ofText name)) := run_index_table h (.ofText name)

/-- The globals show no more than they have where names are looked up in them in order: up to the
first that is a global, none is found. -/
def ShowsNoMore (i : Instance) (names : List String) : Prop :=
  ∀ name ∈ names.takeWhile fun name => i.global name = .nil, i.Finds globals name .nil

theorem showsNoMore_of_metaEntry {i : Instance}
    (h : i.metaEntry (.table globals) "__index" = .nil) (names : List String) :
    i.ShowsNoMore names := by
  intro name hname
  have hnil : i.rawGet globals (.ofText name) = .nil :=
    of_decide_eq_true (List.all_eq_true.1 List.all_takeWhile name hname)
  have hfinds := finds_of_metaEntry h name
  rw [hnil] at hfinds
  exact hfinds

theorem showsNoMore_cons_iff {i : Instance} {name : String} {names : List String}
    (h : i.global name = .nil) :
    i.ShowsNoMore (name :: names) ↔ i.Finds globals name .nil ∧ i.ShowsNoMore names := by
  unfold ShowsNoMore
  rw [List.takeWhile_cons, if_pos (decide_eq_true h)]
  exact List.forall_mem_cons

theorem run_firstTaken {i : Instance} {names : List String} (h : i.ShowsNoMore names) :
    (firstTaken names).run.run i = (.ok (i.taken? names), i) := by
  induction names with
  | nil => rfl
  | cons name names ih =>
    unfold taken?
    by_cases hname : i.global name = .nil
    · obtain ⟨hfirst, hrest⟩ := (showsNoMore_cons_iff hname).1 h
      rw [firstTaken, run_bind_ok hfirst, List.find?_cons_of_neg (by simpa using hname)]
      exact ih hrest
    · have hown : i.Finds globals name (i.global name) := run_index_own hname
      rw [firstTaken, run_bind_ok hown, List.find?_cons_of_pos (by simpa using hname)]
      cases hvalue : i.global name with
      | nil => exact absurd hvalue hname
      | _ => rfl

section

variable {k : Instance} {module : TableRef} {name : String}

/-- Without a global `package` nothing is preloaded. -/
theorem run_preloadModule_of_nil (hindex : k.metaEntry (.table globals) "__index" = .nil)
    (hpackage : k.global "package" = .nil) :
    ∃ text, (preloadModule name module).run.run k = (.ok (), k.note .warn text) := by
  have hget : k.rawGet globals (.ofText "package") = .nil := hpackage
  have hrun := run_index_table hindex (.ofText "package")
  rw [hget] at hrun
  unfold preloadModule
  rw [run_bind_ok hrun]
  exact ⟨_, rfl⟩

/-- The loader of a module goes into `preload` of `package`. -/
theorem run_preloadModule_of_table (hindex : k.metaEntry (.table globals) "__index" = .nil)
    {p l : TableRef} (hpackage : k.global "package" = .table p)
    (hindex' : k.metaEntry (.table p) "__index" = .nil)
    (hpreload : k.rawGet p (.ofText "preload") = .table l)
    (hnewindex : k.metaEntry (.table l) "__newindex" = .nil) :
    ∃ text, (preloadModule name module).run.run k =
      (.ok (), (k.rawSet l (.ofText name) (.function (.loader module))).note .debug text) := by
  have hget : k.rawGet globals (.ofText "package") = .table p := hpackage
  have hrun := run_index_table hindex (.ofText "package")
  rw [hget] at hrun
  have hrun' := run_index_table hindex' (.ofText "preload")
  rw [hpreload] at hrun'
  unfold preloadModule
  rw [run_bind_ok hrun]
  simp only
  rw [run_bind_ok hrun']
  simp only
  rw [run_bind_ok (run_assign_table hnewindex name _)]
  exact ⟨_, rfl⟩

/-- A `package` that has no table under `preload` is no library. -/
theorem run_preloadModule_of_no_loaders (hindex : k.metaEntry (.table globals) "__index" = .nil)
    {p : TableRef} (hpackage : k.global "package" = .table p)
    (hindex' : k.metaEntry (.table p) "__index" = .nil)
    (hpreload : ∀ l, k.rawGet p (.ofText "preload") ≠ .table l) :
    (preloadModule name module).run.run k =
      (.error (.conversion (k.rawGet p (.ofText "preload")).typeName "table" none), k) := by
  have hget : k.rawGet globals (.ofText "package") = .table p := hpackage
  have hrun := run_index_table hindex (.ofText "package")
  rw [hget] at hrun
  have hrun' := run_index_table hindex' (.ofText "preload")
  unfold preloadModule
  rw [run_bind_ok hrun]
  simp only
  rw [run_bind_ok hrun']
  cases hvalue : k.rawGet p (.ofText "preload") with
  | table l => exact absurd hvalue (hpreload l)
  | _ => rfl

/-- A `package` that is no table is no library. -/
theorem run_preloadModule_of_no_table (hindex : k.metaEntry (.table globals) "__index" = .nil)
    (hnil : k.global "package" ≠ .nil) (htable : ∀ p, k.global "package" ≠ .table p) :
    (preloadModule name module).run.run k =
      (.error (.conversion (k.global "package").typeName "table" none), k) := by
  have hget : k.rawGet globals (.ofText "package") = k.global "package" := rfl
  have hrun := run_index_table hindex (.ofText "package")
  rw [hget] at hrun
  unfold preloadModule
  rw [run_bind_ok hrun]
  cases hvalue : k.global "package" with
  | nil => exact absurd hvalue hnil
  | table p => exact absurd hvalue (htable p)
  | _ => rfl

end

end Instance
end RecordTables
