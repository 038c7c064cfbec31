import RecordTables.Instance.Basic
import RecordTables.Proofs.Schema.Naming
import RecordTables.Proofs.Text.Utf8

/-!
Names as keys of tables.

A name stands for a string, and different names for different strings.  `LuaTable.setNames` puts
values under names one by one; what it does is said by what a table has at a key (`rawGet_setNames`)
and by the names that it lists (`namesAmong_setNames`).
-/

namespace RecordTables

/-! ## Names and keys -/

namespace Value

theorem ofText_inj {a b : String} : Value.ofText a = Value.ofText b ↔ a = b := by
  unfold ofText
  rw [Value.string.injEq, Text.bytesOf_inj]

/-- No other value stands for the key of a string. -/
theorem key_eq_string_iff {v : Value} {bytes : List UInt8} :
    v.key = .string bytes ↔ v = .string bytes := by
  constructor
  · intro h
    cases v with
    | float x =>
      unfold key at h
      simp only at h
      split at h
      · cases h
      · cases h
    | _ => exact h
  · intro h
    rw [h]
    rfl

end Value

namespace LuaTable

theorem rawGet_ofText (t : LuaTable) (name : String) :
    t.rawGet (.ofText name) = (t.entries.find? (.ofText name)).getD .nil := rfl

@[simp] theorem rawGet_empty (key : Value) : empty.rawGet key = .nil := by
  unfold rawGet
  split
  · next h => exact absurd (position?_eq_some h).1 (Nat.not_lt_zero _)
  · rfl

/-- The table with values under names, put there in order. -/
def setNames (t : LuaTable) (entries : List (String × Value)) : LuaTable :=
  entries.foldl (fun t (name, value) => t.rawSet (.ofText name) value) t

theorem setNames_cons (t : LuaTable) (e : String × Value) (entries : List (String × Value)) :
    t.setNames (e :: entries) = (t.rawSet (.ofText e.1) e.2).setNames entries := rfl

theorem tableOfNames_eq (entries : List (String × Value)) :
    Instance.tableOfNames entries = empty.setNames entries := rfl

section

variable {t : LuaTable} {entries : List (String × Value)} {key : Value}

@[simp] theorem metatable_setNames : (t.setNames entries).metatable = t.metatable := by
  induction entries generalizing t with
  | nil => rfl
  | cons e entries ih => rw [setNames_cons, ih, metatable_rawSet]

theorem rawGet_rawSet_string_of_ne {bytes : List UInt8} (h : key ≠ .string bytes)
    (value : Value) : (t.rawSet (.string bytes) value).rawGet key = t.rawGet key :=
  t.rawGet_rawSet_of_ne (mt Value.key_eq_string_iff.1 h) value

theorem rawGet_rawSet_ofText_of_ne {name : String} (h : key ≠ .ofText name) (value : Value) :
    (t.rawSet (.ofText name) value).rawGet key = t.rawGet key :=
  rawGet_rawSet_string_of_ne h value

theorem rawGet_setNames_of_ne (h : ∀ e ∈ entries, key ≠ .ofText e.1) :
    (t.setNames entries).rawGet key = t.rawGet key := by
  induction entries generalizing t with
  | nil => rfl
  | cons e entries ih =>
    rw [List.forall_mem_cons] at h
    rw [setNames_cons, ih h.2, rawGet_rawSet_ofText_of_ne h.1]

theorem rawGet_setNames (hnames : (entries.map (·.1)).Nodup) {e : String × Value}
    (he : e ∈ entries) : (t.setNames entries).rawGet (.ofText e.1) = e.2 := by
  induction entries generalizing t with
  | nil => exact absurd he List.not_mem_nil
  | cons first entries ih =>
    rw [List.map_cons, List.nodup_cons] at hnames
    rw [setNames_cons]
    rcases List.mem_cons.1 he with rfl | he
    · have hlater : ∀ e' ∈ entries, Value.ofText e.1 ≠ .ofText e'.1 := by
        intro e' he' heq
        exact hnames.1 (List.mem_map.2 ⟨e', he', (Value.ofText_inj.1 heq).symm⟩)
      rw [rawGet_setNames_of_ne hlater, rawGet_rawSet_self]
    · exact ih hnames.2 he

theorem rawGet_setNames_or (t : LuaTable) (entries : List (String × Value)) (key : Value) :
    (t.setNames entries).rawGet key = t.rawGet key ∨
      ∃ e ∈ entries, key = .ofText e.1 ∧ (t.setNames entries).rawGet key = e.2 := by
  induction entries generalizing t with
  | nil => exact Or.inl rfl
  | cons e entries ih =>
    rw [setNames_cons]
    rcases ih (t.rawSet (.ofText e.1) e.2) with hsame | ⟨e', he', hkey, hget⟩
    · by_cases hkey : key = .ofText e.1
      · refine Or.inr ⟨e, List.mem_cons_self, hkey, ?_⟩
        rw [hsame, hkey, rawGet_rawSet_self]
      · rw [hsame, rawGet_rawSet_ofText_of_ne hkey]
        exact Or.inl rfl
    · exact Or.inr ⟨e', List.mem_cons_of_mem e he', hkey, hget⟩

end

/-! ## The names that a table lists -/

/-- Every name that a table lists has a value. -/
def Listed (t : LuaTable) : Prop := ∀ name, .ofText name ∈ t.keys → t.rawGet (.ofText name) ≠ .nil

theorem ofText_mem_keys_iff {t : LuaTable} {name : String} :
    .ofText name ∈ t.keys ↔ .ofText name ∈ t.entries.keys := by
  unfold keys
  rw [List.mem_append, List.mem_map]
  constructor
  · intro h
    rcases h with ⟨n, _, hn⟩ | h
    · cases hn
    · exact h
  · exact Or.inr

theorem listed_iff {t : LuaTable} :
    t.Listed ↔ ∀ name, t.entries.find? (.ofText name) ≠ some .nil := by
  refine forall_congr' fun name => ?_
  rw [ofText_mem_keys_iff, ← Dictionary.find?_isSome_iff, rawGet_ofText]
  cases t.entries.find? (.ofText name) <;> simp

theorem listed_empty : empty.Listed := by
  rw [listed_iff]
  intro name h
  cases h

theorem Listed.rawSet {t : LuaTable} (h : t.Listed) (key value : Value) :
    (t.rawSet key value).Listed := by
  rw [listed_iff] at h ⊢
  intro name
  have hentries : (t.rawSet key value).entries = (t.put key value).entries := rfl
  rw [hentries]
  unfold put
  split
  · exact h name
  · split
    · by_cases hkey : Value.ofText name = key.key
      · rw [hkey, Dictionary.find?_erase_self]
        exact (Option.some_ne_none _).symm
      · rw [Dictionary.find?_erase_of_ne _ hkey]
        exact h name
    · next hvalue =>
      by_cases hkey : Value.ofText name = key.key
      · rw [hkey, Dictionary.find?_insert_self]
        exact fun heq => hvalue (Option.some.inj heq)
      · rw [Dictionary.find?_insert_of_ne _ hkey]
        exact h name

theorem Listed.setNames {t : LuaTable} (h : t.Listed) (entries : List (String × Value)) :
    (t.setNames entries).Listed := by
  induction entries generalizing t with
  | nil => exact h
  | cons e entries ih =>
    rw [setNames_cons]
    exact ih (h.rawSet _ _)

/-- A new name comes first among the named keys, and leaves the others. -/
theorem keys_rawSet_ofText {t : LuaTable} {name : String} {value : Value} (hvalue : value ≠ .nil)
    (hnew : .ofText name ∉ t.keys) :
    (t.rawSet (.ofText name) value).entries.keys = .ofText name :: t.entries.keys := by
  have hentries : (t.rawSet (.ofText name) value).entries =
      t.entries.insert (.ofText name) value := by
    cases value with
    | nil => exact absurd rfl hvalue
    | _ => rfl
  rw [ofText_mem_keys_iff] at hnew
  have herase : t.entries.erase (.ofText name) = t.entries := by
    unfold Dictionary.erase
    congr 1
    refine List.filter_eq_self.2 fun e he => ?_
    rw [decide_eq_true_iff]
    intro heq
    exact hnew (List.mem_map.2 ⟨e, he, heq⟩)
  rw [hentries]
  unfold Dictionary.insert
  rw [herase]
  rfl

/-- New names come before the names that were listed, the latest first. -/
theorem keys_setNames {t : LuaTable} {entries : List (String × Value)}
    (hvalues : ∀ e ∈ entries, e.2 ≠ .nil) (hnames : (entries.map (·.1)).Nodup)
    (hnew : ∀ e ∈ entries, .ofText e.1 ∉ t.keys) :
    (t.setNames entries).entries.keys =
      ((entries.map (·.1)).reverse.map .ofText) ++ t.entries.keys := by
  induction entries generalizing t with
  | nil => rfl
  | cons e entries ih =>
    rw [List.forall_mem_cons] at hvalues hnew
    rw [List.map_cons, List.nodup_cons] at hnames
    have hkeys := keys_rawSet_ofText hvalues.1 hnew.1
    have hlater : ∀ e' ∈ entries, .ofText e'.1 ∉ (t.rawSet (.ofText e.1) e.2).keys := by
      intro e' he'
      rw [ofText_mem_keys_iff, hkeys, List.mem_cons, Value.ofText_inj, ← ofText_mem_keys_iff]
      rintro (heq | hmem)
      · exact hnames.1 (List.mem_map.2 ⟨e', he', heq⟩)
      · exact hnew.2 e' he' hmem
    rw [setNames_cons, ih hvalues.2 hnames.2 hlater, hkeys]
    simp

theorem items_rawSet_ofText (t : LuaTable) (name : String) (value : Value) :
    (t.rawSet (.ofText name) value).items = t.items := by
  cases value <;> rfl

@[simp] theorem items_setNames (t : LuaTable) (entries : List (String × Value)) :
    (t.setNames entries).items = t.items := by
  induction entries generalizing t with
  | nil => rfl
  | cons e entries ih => rw [setNames_cons, ih, items_rawSet_ofText]

/-- A table that was made from names has these names as its keys and no others. -/
theorem keys_tableOfNames {entries : List (String × Value)} (hvalues : ∀ e ∈ entries, e.2 ≠ .nil)
    (hnames : (entries.map (·.1)).Nodup) :
    (Instance.tableOfNames entries).keys = (entries.map (·.1)).reverse.map .ofText := by
  have hkeys := keys_setNames (t := empty) hvalues hnames fun _ _ => List.not_mem_nil
  have hitems : (empty.setNames entries).items = #[] := items_setNames empty entries
  rw [tableOfNames_eq, keys, hkeys, hitems]
  exact List.append_nil _

end LuaTable

namespace Instance

theorem namesAmong_keys (t : LuaTable) : namesAmong t.keys = namesAmong t.entries.keys := by
  unfold LuaTable.keys
  generalize (List.range t.items.size).filter (fun n => t.items.getD n .nil ≠ .nil) = places
  induction places with
  | nil => rfl
  | cons n places ih => exact ih

theorem namesAmong_ofText_cons (name : String) (keys : List Value) :
    namesAmong (.ofText name :: keys) = (namesAmong keys).map (name :: ·) := by
  have htext : textOfString (Text.bytesOf name) = .ok name := by
    unfold textOfString
    rw [Text.Utf8.decode?_bytesOf]
  unfold Value.ofText
  rw [namesAmong, htext]
  cases namesAmong keys <;> rfl

theorem namesAmong_ofText_append (names : List String) (keys : List Value) :
    namesAmong (names.map .ofText ++ keys) = (namesAmong keys).map (names ++ ·) := by
  induction names with
  | nil => cases hkeys : namesAmong keys <;> simp [hkeys, Except.map]
  | cons name names ih =>
    rw [List.map_cons, List.cons_append, namesAmong_ofText_cons, ih]
    cases namesAmong keys <;> rfl

/-- New names are listed beside the old ones, the latest first. -/
theorem namesAmong_setNames {t : LuaTable} {entries : List (String × Value)}
    (hvalues : ∀ e ∈ entries, e.2 ≠ .nil) (hnames : (entries.map (·.1)).Nodup)
    (hnew : ∀ e ∈ entries, .ofText e.1 ∉ t.keys) :
    namesAmong (t.setNames entries).keys =
      (namesAmong t.keys).map fun names => (entries.map (·.1)).reverse ++ names := by
  rw [namesAmong_keys, LuaTable.keys_setNames hvalues hnames hnew, namesAmong_ofText_append,
    ← namesAmong_keys]

end Instance
end RecordTables
