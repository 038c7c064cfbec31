import RecordTables.Proofs.Record.Setting
import RecordTables.Record.Text

/-!
Records that stay what they should be.

`Records.Conform` says of all records at once that they belong to tables of a set and hold what they
may hold.  A record may refer to others, so the argument goes through the tables of records by name:
making a record only adds to them, and setting a field keeps them.
-/

namespace RecordTables

/-! ## More records -/

/-- Whatever record has a table keeps it. -/
def RecordNames.Extends (names names' : RecordNames) : Prop :=
  ∀ r name, names r = some name → names' r = some name

section

variable {names names' : RecordNames}

theorem Stored.mono (hx : RecordNames.Extends names names') {luaType : LuaType} {type : ValueType}
    {v : Value} (h : Stored names luaType type v) : Stored names' luaType type v := by
  cases h with
  | integer hb hl hh => exact .integer hb hl hh
  | number => exact .number _ _
  | string => exact .string _ _
  | boolean => exact .boolean _ _
  | light => exact .light _ _
  | noLight => exact .noLight _
  | record hr => exact .record (hx _ _ hr)

theorem StoredItem.mono (hx : RecordNames.Extends names names') {type : ValueType} {v : Value}
    (h : StoredItem names type v) : StoredItem names' type v := by
  cases h with
  | integer hb hl hh => exact .integer hb hl hh
  | float hs => exact .float hs _
  | string => exact .string _
  | record hr => exact .record (hx _ _ hr)

theorem Field.HoldsPlain.mono (hx : RecordNames.Extends names names') {f : Field} {c : Content}
    (h : f.HoldsPlain names c) : f.HoldsPlain names' c := by
  cases h with
  | unset h => exact .unset h
  | single ha ht hv => exact .single ha ht (hv.mono hx)
  | sequence ha ht hn hitems => exact .sequence ha ht hn fun v hv => (hitems v hv).mono hx

theorem checkRecord_isOk_mono (hx : RecordNames.Extends names names') {place : Place}
    {name : String} {c : Content} (h : (checkRecord names place name c).isOk = true) :
    (checkRecord names' place name c).isOk = true := by
  unfold checkRecord at h ⊢
  split
  · next r =>
    simp only at h
    split at h
    · next found hr =>
      rw [hx r found hr]
      exact h
    · cases h
  · next hnot =>
    exact absurd h (by simp [Place.refuse, Except.isOk, Except.toBool])

/-- Of all checks, only the one of a record looks at the tables of records. -/
theorem checkSingle_isOk_mono (hx : RecordNames.Extends names names') {place : Place}
    {luaType : LuaType} {type : ValueType} {c : Content}
    (h : (checkSingle names place luaType type c).isOk = true) :
    (checkSingle names' place luaType type c).isOk = true := by
  cases luaType with
  | table =>
    cases type with
    | table name => exact checkRecord_isOk_mono hx h
    | scalar s => exact h
    | foreign name => exact h
  | integer => exact h
  | number => exact h
  | string => exact h
  | boolean => exact h
  | lightUserData => exact h
  | conditional => exact h

theorem Field.HoldsChosen.mono (hx : RecordNames.Extends names names') {t : Table}
    {values : FieldValues} {f : Field} {c : Content} (h : f.HoldsChosen names t values c) :
    f.HoldsChosen names' t values c := by
  cases h with
  | unset => exact .unset
  | chosen hc hg hn hcase hv => exact .chosen hc hg hn hcase (checkSingle_isOk_mono hx hv)

theorem FieldValues.Conform.mono (hx : RecordNames.Extends names names') {t : Table}
    {values : FieldValues} (h : values.Conform names t) : values.Conform names' t := by
  intro f hf
  exact ⟨fun hl => ((h f hf).plain hl).mono hx, fun hl => ((h f hf).chosen hl).mono hx⟩

end

/-- Two records are of one table and hold the same in its fields. -/
structure Record.Alike (a b : Record) : Prop where
  table : b.table = a.table
  values : ∀ f ∈ a.table.fields, b.values.get f.name = a.values.get f.name

namespace Records

/-- The same records exist, and each of them holds the same. -/
def Alike (rs rs' : Records) : Prop := ∀ r, Option.Rel Record.Alike (rs.get? r) (rs'.get? r)

/-- Every record belongs to a table of the set and holds what it may hold. -/
def Conform (s : TableSet) (rs : Records) : Prop :=
  ∀ r record, rs.get? r = some record →
    record.table ∈ s.tables ∧ record.values.Conform rs.names record.table

theorem conform_empty (s : TableSet) : empty.Conform s := by
  intro r record h
  simp [get?, empty] at h

theorem names_eq_some {rs : Records} {r : RecordRef} {record : Record}
    (h : rs.get? r = some record) : rs.names r = some record.table.name := by
  unfold names
  rw [h]
  rfl

theorem exists_of_names {rs : Records} {r : RecordRef} {name : String}
    (h : rs.names r = some name) : ∃ record, rs.get? r = some record ∧ record.table.name = name := by
  unfold names at h
  exact Option.map_eq_some_iff.1 h

theorem get?_push_of_some {rs : Records} {r : RecordRef} {record : Record}
    (h : rs.get? r = some record) (added : Record) :
    (rs.push added).1.get? r = some record := by
  have hlt := index_lt_of_get? h
  have hne : r ≠ (rs.push added).2 := by
    intro heq
    rw [heq] at hlt
    exact Nat.lt_irrefl _ hlt
  rw [get?_push_of_ne rs added hne]
  exact h

theorem get?_push_eq_some {rs : Records} {added : Record} {r : RecordRef} {record : Record}
    (h : (rs.push added).1.get? r = some record) : rs.get? r = some record ∨ record = added := by
  by_cases hr : r = (rs.push added).2
  · rw [hr, get?_push_self] at h
    exact Or.inr (Option.some.inj h).symm
  · rw [get?_push_of_ne rs added hr] at h
    exact Or.inl h

theorem extends_push (rs : Records) (added : Record) :
    RecordNames.Extends rs.names (rs.push added).1.names := by
  intro r name h
  obtain ⟨record, hr, hname⟩ := exists_of_names h
  rw [names_eq_some (get?_push_of_some hr added), hname]

theorem get?_put_eq_some {rs : Records} {r other : RecordRef} {record record' : Record}
    (h : (rs.put r record').get? other = some record) :
    rs.get? other = some record ∨ other = r ∧ record = record' := by
  by_cases hr : other = r
  · subst hr
    right
    by_cases hlt : other.index < rs.slots.size
    · rw [get?_put_self record' hlt] at h
      exact ⟨rfl, (Option.some.inj h).symm⟩
    · have hnone : (rs.put other record').get? other = none := by
        simp [get?, put, hlt]
      rw [hnone] at h
      cases h
  · rw [get?_put_of_ne rs record' hr] at h
    exact Or.inl h

/-- Putting a record of the same table in the place of one leaves the tables of all records. -/
theorem names_put {rs : Records} {r : RecordRef} {record record' : Record}
    (hr : rs.get? r = some record) (ht : record'.table = record.table) :
    (rs.put r record').names = rs.names := by
  funext other
  by_cases hother : other = r
  · subst hother
    rw [names_eq_some hr, names_eq_some (get?_put_self record' (index_lt_of_get? hr)), ht]
  · unfold names
    rw [get?_put_of_ne rs record' hother]

/-! ## What the functions keep -/

section

variable {s : TableSet} {rs : Records} {t : Table}

theorem Conform.push (h : rs.Conform s) (ht : t ∈ s.tables) {values : FieldValues}
    (hv : values.Conform rs.names t) : (rs.push ⟨t, values⟩).1.Conform s := by
  have hx := rs.extends_push ⟨t, values⟩
  intro r record hr
  rcases get?_push_eq_some hr with hr | rfl
  · obtain ⟨htable, hvalues⟩ := h r record hr
    exact ⟨htable, hvalues.mono hx⟩
  · exact ⟨ht, hv.mono hx⟩

theorem Conform.put (h : rs.Conform s) {r : RecordRef} {record : Record}
    (hr : rs.get? r = some record) {values : FieldValues}
    (hv : values.Conform rs.names record.table) :
    (rs.put r { record with values := values }).Conform s := by
  have hnames : (rs.put r { record with values := values }).names = rs.names := names_put hr rfl
  intro other record' hother
  rw [hnames]
  rcases get?_put_eq_some hother with hold | ⟨_, rfl⟩
  · exact h other record' hold
  · exact ⟨(h r record hr).1, hv⟩

/-- The record that a function works on is one of the function's table: tables of a set with one name
are one table. -/
theorem receiver_yields (hs : s.WellFormed) (h : rs.Conform s) (ht : t ∈ s.tables) (r : RecordRef) :
    Yields (fun record => rs.get? r = some record ∧ record.table = t) (rs.receiver t r) := by
  unfold receiver
  cases hr : rs.get? r with
  | none => rfl
  | some record =>
    simp only
    by_cases hname : record.table.name = t.name
    · rw [if_pos hname]
      exact ⟨rfl, List.inj_on_of_nodup_map hs.names (h r record hr).1 ht hname⟩
    · rw [if_neg hname]
      rfl

theorem create_yields (hs : s.WellFormed) (ht : t ∈ s.tables) (args : List Content) :
    Yields (fun out => ∃ values, out = rs.push ⟨t, values⟩ ∧ values.Conform rs.names t ∧
        (∀ f ∈ t.fields, f.CountMatches t values (values.get f.name)) ∧
        ∀ f ∈ t.fields, f.luaType ≠ .conditional → LengthsFrom args (values.get f.name))
      (rs.create t args) :=
  (construct_yields rs.names (hs.tables t ht) args).map fun values hvalues => ⟨values, rfl, hvalues⟩

theorem getField_yields (hs : s.WellFormed) (h : rs.Conform s) (ht : t ∈ s.tables) {index : Nat}
    {f : Field} (hf : t.fields[index]? = some f) (r : RecordRef) :
    Yields (fun c => ∃ record, rs.get? r = some record ∧ c = record.values.get f.name)
      (rs.getField t index r) := by
  refine (receiver_yields hs h ht r).bind fun record hrecord => ?_
  unfold RecordTables.getField Table.fieldAt
  rw [hf]
  exact ⟨record, hrecord.1, rfl⟩

theorem setField_yields (hs : s.WellFormed) (h : rs.Conform s) (ht : t ∈ s.tables) {index : Nat}
    {f : Field} (hf : t.fields[index]? = some f) (r : RecordRef) (c : Content) :
    Yields (fun out => ∃ record values stored, rs.get? r = some record ∧ record.table = t ∧
        out.1 = rs.put r { record with values := values } ∧ values.Conform rs.names t ∧
        FieldSet rs.names t f record.values c stored values)
      (rs.setField t index r c) := by
  refine (receiver_yields hs h ht r).bind fun record hrecord => ?_
  obtain ⟨hr, htable⟩ := hrecord
  have hv := (h r record hr).2
  rw [htable] at hv
  refine (RecordTables.setField_yields (hs.tables t ht) hv hf c).bind fun u hu => ?_
  obtain ⟨hconform, stored, hset⟩ := hu
  exact ⟨record, u.values, stored, hr, htable, rfl, hconform, hset⟩

end

end Records
end RecordTables
