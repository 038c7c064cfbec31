import RecordTables.Proofs.Instance.Binding

/-!
The functions of a class.

The constructor, the getters and the setters of a class stand in one table, under the field names, the
names made of these, and one name of their own.  What resolution asks of names keeps them apart, also
where a field is itself called like a setter: `defineClass_complete` says that a class has a function
for each of its purposes and that none was put in another's place.
-/

namespace RecordTables

/-! ## Names -/

theorem setterName_inj {a b : String} : setterName a = setterName b ↔ a = b := by
  unfold setterName
  rw [← String.toList_inj, String.toList_append, String.toList_append, List.append_cancel_left_eq,
    String.toList_inj]

theorem setterName_ne_constructorName (name : String) : setterName name ≠ constructorName := by
  intro h
  have hlist := congrArg String.toList h
  rw [setterName, String.toList_append] at hlist
  exact absurd (List.head_eq_of_cons_eq hlist) (by decide)

/-- The names of the functions of a class whose fields have these names. -/
def functionNames (names : List String) : List String :=
  constructorName :: names.flatMap fun name => [name, setterName name]

theorem length_functionNames (names : List String) :
    (functionNames names).length = 2 * names.length + 1 := by
  have hpair : ∀ name : String, [name, setterName name].length = 2 := fun _ => rfl
  simp only [functionNames, List.length_cons, List.length_flatMap, hpair, List.map_const',
    List.sum_replicate_nat, Nat.mul_comm]

theorem nodup_functionNames {names : List String} (hnames : names.Nodup)
    (hnew : constructorName ∉ names) (hset : ∀ name ∈ names, setterName name ∉ names) :
    (functionNames names).Nodup := by
  have hself : ∀ name ∈ names, name ≠ setterName name := by
    intro name hname heq
    exact hset name hname (heq ▸ hname)
  unfold functionNames
  rw [List.nodup_cons, List.nodup_flatMap]
  refine ⟨?_, ?_, ?_⟩
  · intro hmem
    obtain ⟨name, hname, h⟩ := List.mem_flatMap.1 hmem
    rcases List.mem_cons.1 h with h | h
    · exact hnew (h ▸ hname)
    · exact setterName_ne_constructorName name (List.mem_singleton.1 h).symm
  · intro name hname
    simpa using hself name hname
  · refine hnames.imp_of_mem fun {a b} ha hb hne => ?_
    show List.Disjoint [a, setterName a] [b, setterName b]
    rw [List.disjoint_left]
    intro name hna hnb
    simp only [List.mem_cons, List.not_mem_nil, or_false] at hna hnb
    rcases hna with rfl | rfl
    · rcases hnb with h | h
      · exact hne h
      · exact hset b hb (h ▸ ha)
    · rcases hnb with h | h
      · exact hset a ha (h ▸ hb)
      · exact hne (setterName_inj.1 h)

/-- The names of an accepted table keep the functions of its class apart. -/
theorem nodup_functionNames_of_resolves {d : Declarations} {s : TableSet}
    (hs : TableSet.ofDeclarations d = .ok s) {t : Table} (ht : t ∈ s.tables) :
    (functionNames (t.fields.map (·.name))).Nodup := by
  obtain ⟨declared, _, h⟩ := exists_mem_of_forall₂ (resolves_iff.1 hs).tables ht
  have hnamed := h.wellNamed
  rw [← map_eq_map_of_forall₂ (fun _ _ hf => hf.name_eq) h.fields]
  refine nodup_functionNames hnamed.names ?_ ?_
  · intro hmem
    obtain ⟨f, hf, hname⟩ := List.mem_map.1 hmem
    exact hnamed.noConstructor f hf hname
  · intro name hname hmem
    obtain ⟨f, hf, rfl⟩ := List.mem_map.1 hname
    obtain ⟨g, hg, hsame⟩ := List.mem_map.1 hmem
    exact hnamed.noSetter f hf g hg hsame

/-! ## Classes -/

namespace Instance

/-- The class of a table has all functions that it should have, each under its own name, and nothing
else.  They are put there one by one, and each name is free when its turn comes. -/
structure ClassComplete (i : Instance) (c : TableRef) (t : Table) : Prop where
  distinct : (i.table c).keys.Nodup
  count : (i.table c).keys.length = 2 * t.fields.length + 1
  listed : ∀ key, key ∈ (i.table c).keys ↔ i.rawGet c key ≠ .nil
  create : i.rawGet c (.ofText "new") = .function (.accessor c t .create)
  get : ∀ index f, t.fields[index]? = some f →
    i.rawGet c (.ofText f.name) = .function (.accessor c t (.get index))
  set : ∀ index f, t.fields[index]? = some f →
    i.rawGet c (.ofText ("set_" ++ f.name)) = .function (.accessor c t (.set index))
  free : ∀ earlier name value later, classFunctions c t = earlier ++ (name, value) :: later →
    (tableOfNames earlier).rawGet (.ofText name) = .nil

section

variable {i : Instance} {c : TableRef} {t : Table}

theorem map_fst_classFunctions (c : TableRef) (t : Table) :
    (classFunctions c t).map (·.1) = functionNames (t.fields.map (·.name)) := by
  have hfields : t.fields.zipIdx.map (·.1) = t.fields := List.zipIdx_map_fst 0 t.fields
  unfold classFunctions functionNames
  rw [List.map_cons, List.map_flatMap, List.flatMap_map, ← hfields, List.flatMap_map, hfields]
  rfl

theorem ne_nil_of_mem_classFunctions {e : String × Value} (he : e ∈ classFunctions c t) :
    e.2 ≠ .nil := by
  obtain ⟨role, hrole⟩ := exists_role_of_mem_classFunctions he
  rw [hrole]
  nofun

/-- A class whose functions have different names is complete. -/
theorem HoldsClass.complete (h : i.HoldsClass c t)
    (hkeys : (i.table c).keys = (tableOfNames (classFunctions c t)).keys)
    (hnames : (functionNames (t.fields.map (·.name))).Nodup) : i.ClassComplete c t := by
  have hfst := map_fst_classFunctions c t
  rw [← hfst] at hnames
  have hlisted := LuaTable.keys_tableOfNames
    (fun _ he => ne_nil_of_mem_classFunctions he) hnames
  rw [← hkeys, hfst] at hlisted
  have hget : ∀ e ∈ classFunctions c t, i.rawGet c (.ofText e.1) = e.2 := by
    intro e he
    rw [h.functions, LuaTable.tableOfNames_eq]
    exact LuaTable.rawGet_setNames hnames he
  constructor
  · rw [hlisted, ← hfst]
    exact (List.nodup_reverse.2 hnames).map fun _ _ => Value.ofText_inj.1
  · rw [hlisted, List.length_map, List.length_reverse, length_functionNames, List.length_map]
  · intro key
    rw [hlisted, List.mem_map, ← hfst]
    constructor
    · rintro ⟨name, hname, rfl⟩
      obtain ⟨e, he, rfl⟩ := List.mem_map.1 (List.mem_reverse.1 hname)
      rw [hget e he]
      exact ne_nil_of_mem_classFunctions he
    · intro hne
      rw [h.functions, LuaTable.tableOfNames_eq] at hne
      rcases LuaTable.rawGet_setNames_or .empty (classFunctions c t) key with
        hnone | ⟨e, he, rfl, _⟩
      · rw [hnone] at hne
        exact absurd (LuaTable.rawGet_empty key) hne
      · exact ⟨e.1, List.mem_reverse.2 (List.mem_map_of_mem he), rfl⟩
  · exact hget ("new", _) (mem_classFunctions_iff.2 (Or.inl rfl))
  · intro index f hf
    exact hget (f.name, _) (mem_classFunctions_iff.2 (Or.inr ⟨index, f, hf, Or.inl rfl⟩))
  · intro index f hf
    exact hget (setterName f.name, _)
      (mem_classFunctions_iff.2 (Or.inr ⟨index, f, hf, Or.inr rfl⟩))
  · intro earlier name value later heq
    rw [heq, List.map_append, List.map_cons, List.nodup_append] at hnames
    have hne := hnames.2.2
    rw [LuaTable.tableOfNames_eq, LuaTable.rawGet_setNames_of_ne, LuaTable.rawGet_empty]
    intro e he hsame
    exact hne e.1 (List.mem_map_of_mem he) name List.mem_cons_self (Value.ofText_inj.1 hsame.symm)

end

/-- The class of a table of an accepted set has its constructor and the getter and the setter of each
field under their names, and no other entry. -/
theorem defineClass_complete {d : Declarations} {s : TableSet}
    (hs : TableSet.ofDeclarations d = .ok s) {t : Table} (ht : t ∈ s.tables) (i : Instance) :
    (i.defineClass t).1.ClassComplete (i.defineClass t).2 t := by
  refine (holdsClass_defineClass i t).complete ?_ (nodup_functionNames_of_resolves hs ht)
  rw [table_defineClass, if_pos rfl]
  rfl

/-- Fields that are named like setters, though none is named like the setter of another. -/
def prefixedDeclarations : Declarations where
  read := [⟨"node", "node_t", [
    ⟨"set_x", none, some "uint8", .integer, none, none, []⟩,
    ⟨"set_set_set_x", none, some "uint8", .integer, none, none, []⟩,
    ⟨"set_new", none, some "uint8", .integer, none, none, []⟩]⟩]
  definition := []

def prefixedTable : Table where
  tag := "node"
  name := "node_t"
  origin := .read
  fields := [
    ⟨"set_x", "set_x", .integer, some (.scalar .uint8), .one, none⟩,
    ⟨"set_set_set_x", "set_set_set_x", .integer, some (.scalar .uint8), .one, none⟩,
    ⟨"set_new", "set_new", .integer, some (.scalar .uint8), .one, none⟩]

theorem defineClass_complete_prefixed :
    TableSet.ofDeclarations prefixedDeclarations = .ok ⟨[prefixedTable]⟩ ∧
      prefixedTable ∈ [prefixedTable] ∧
      (created.defineClass prefixedTable).1.ClassComplete (created.defineClass prefixedTable).2
        prefixedTable := by
  have haccepted : TableSet.ofDeclarations prefixedDeclarations = .ok ⟨[prefixedTable]⟩ := rfl
  exact ⟨haccepted, List.mem_cons_self, defineClass_complete haccepted List.mem_cons_self created⟩

end Instance
end RecordTables
