import RecordTables.Proofs.Instance.Accepting
import RecordTables.Proofs.Text.Codes
import RecordTables.Schema.Description

/-!
What the words for a field tell.

A single value is described by its representation and its type, and both can be read off the words.
Not so where the type is a table: its name stands alone, whether the field holds a record or light
userdata.  The setters of two such fields with the same words take the same values only if the
fields have the same representation, which is `described_alike_iff`.
-/

namespace RecordTables

/-! ## Single values in words -/

theorem LuaType.name_inj {luaType luaType' : LuaType} (h : luaType.name = luaType'.name) :
    luaType = luaType' := by
  revert h
  cases luaType <;> cases luaType' <;> decide

theorem ScalarType.name_inj {s s' : ScalarType} (h : s.name = s'.name) : s = s' :=
  Option.some.inj ((ofName?_eq_some_iff.2 rfl).symm.trans (ofName?_eq_some_iff.2 h))

/-- A scalar type, or an unknown one, which is not called like a scalar. -/
inductive ValueType.Simple : ValueType → Prop
  | scalar (s : ScalarType) : Simple (.scalar s)
  | foreign {name : String} (h : ∀ s : ScalarType, name ≠ s.name) : Simple (.foreign name)

def ValueType.IsTable (type : ValueType) : Prop := ∃ name, type = .table name

namespace ValueType.Simple

variable {type type' : ValueType} {luaType luaType' : LuaType}

theorem describe_inj (h : type.Simple) (h' : type'.Simple) (heq : type.describe = type'.describe) :
    type = type' := by
  cases h with
  | scalar s =>
    cases h' with
    | scalar s' => exact congrArg _ (ScalarType.name_inj heq)
    | foreign hnone => exact absurd heq.symm (hnone s)
  | foreign hnone =>
    cases h' with
    | scalar s' => exact absurd heq (hnone s')
    | foreign => exact congrArg _ heq

/-- The words start with the representation.  Nothing follows if the type is called the same. -/
theorem toList_describeSingle (h : type.Simple) (luaType : LuaType) :
    ∃ rest, (describeSingle luaType type).toList ++ [' '] = luaType.name.toList ++ ' ' :: rest ∧
      (rest = [] ∧ type.describe = luaType.name ∨
        rest = '(' :: (type.describe.toList ++ [')', ' '])) := by
  have hboth : (luaType.name ++ " (" ++ type.describe ++ ")").toList ++ [' '] =
      luaType.name.toList ++ ' ' :: '(' :: (type.describe.toList ++ [')', ' ']) := by
    simp [String.toList_append]
  cases h with
  | foreign => exact ⟨_, hboth, Or.inr rfl⟩
  | scalar s =>
    simp only [describeSingle]
    by_cases hs : s.name = luaType.name
    · rw [if_pos hs]
      exact ⟨[], rfl, Or.inl ⟨rfl, hs⟩⟩
    · rw [if_neg hs]
      exact ⟨_, hboth, Or.inr rfl⟩

theorem describeSingle_eq_iff (h : type.Simple) (h' : type'.Simple) :
    describeSingle luaType type = describeSingle luaType' type' ↔
      luaType = luaType' ∧ type = type' := by
  constructor
  · intro heq
    have hspace : ∀ luaType : LuaType, ' ' ∉ luaType.name.toList := by
      intro luaType
      cases luaType <;> decide
    obtain ⟨rest, hrest, hcases⟩ := h.toList_describeSingle luaType
    obtain ⟨rest', hrest', hcases'⟩ := h'.toList_describeSingle luaType'
    rw [heq, hrest'] at hrest
    obtain ⟨hname, rfl⟩ := Text.append_stop_inj (hspace luaType') (hspace luaType) hrest
    obtain rfl := LuaType.name_inj (String.toList_inj.1 hname)
    refine ⟨rfl, h.describe_inj h' ?_⟩
    rcases hcases with ⟨rfl, hshort⟩ | hlong
    · rcases hcases' with ⟨_, hshort'⟩ | hlong'
      · exact hshort.trans hshort'.symm
      · exact absurd hlong' (List.cons_ne_nil _ _).symm
    · rcases hcases' with ⟨hnil, _⟩ | hlong'
      · exact absurd (hlong.symm.trans hnil) (List.cons_ne_nil _ _)
      · have hdescribe := (List.cons.inj (hlong.symm.trans hlong')).2
        exact String.toList_inj.1 (List.append_cancel_right hdescribe)
  · intro hsame
    rw [hsame.1, hsame.2]

end ValueType.Simple

/-- A field of an accepted set has tables and simple types only. -/
theorem simple_of_resolves {d : Declarations} {s : TableSet}
    (hs : TableSet.ofDeclarations d = .ok s) {t : Table} (ht : t ∈ s.tables) {f : Field}
    (hf : f ∈ t.fields) {type : ValueType} (htype : type ∈ f.types) :
    type.IsTable ∨ type.Simple := by
  cases type with
  | table name => exact Or.inl ⟨name, rfl⟩
  | scalar scalar => exact Or.inr (.scalar scalar)
  | foreign name => exact Or.inr (.foreign (foreign_of_resolves hs ht hf htype))

/-! ## Fields with a single value -/

/-- A field holds a single value of a type. -/
structure Field.IsSingle (f : Field) (type : ValueType) : Prop where
  arity : f.arity = .one
  condition : f.condition = none
  type_eq : f.type = some type

namespace Field.IsSingle

variable {f : Field} {type : ValueType} {t : Table} {names : RecordNames} {values : FieldValues}

theorem describe_eq (h : f.IsSingle type) (t : Table) :
    f.describe t = describeSingle f.luaType type := by
  simp only [describe, h.condition, h.type_eq, h.arity]

theorem mem_types (h : f.IsSingle type) : type ∈ f.types := by
  rw [types, h.type_eq]
  exact List.mem_append_left _ List.mem_cons_self

theorem represents (h : f.IsSingle type) (hf : f.WellFormed t) : Represents f.luaType type := by
  cases hf with
  | single _ _ ht hr =>
    rw [h.type_eq] at ht
    cases ht
    exact hr
  | sequence ha => exact absurd h.arity ha
  | conditional _ hc =>
    rw [h.condition] at hc
    cases hc

theorem accepts_iff (h : f.IsSingle type) (c : Content) :
    f.Accepts names t values c ↔
      c = .nil ∧ f.MayBeUnset ∨ ∃ v, c = .single v ∧ v.Suits names f.luaType type := by
  constructor
  · intro haccepts
    cases haccepts with
    | unset hunset => exact Or.inl ⟨rfl, hunset⟩
    | single _ ht hv =>
      rw [h.type_eq] at ht
      cases ht
      exact Or.inr ⟨_, rfl, hv⟩
    | sequence ha => exact absurd h.arity ha
    | chosen hc =>
      rw [h.condition] at hc
      cases hc
  · intro hcases
    rcases hcases with ⟨rfl, hunset⟩ | ⟨v, rfl, hv⟩
    · exact .unset hunset
    · exact .single h.arity h.type_eq hv

/-- Light userdata is for fields of this representation only. -/
theorem accepts_light_iff (h : f.IsSingle type) (address : Nat) :
    f.Accepts names t values (.single (.light address)) ↔ f.luaType = .lightUserData := by
  rw [h.accepts_iff]
  constructor
  · intro hcases
    rcases hcases with ⟨hnil, _⟩ | ⟨v, hv, hsuits⟩
    · cases hnil
    · cases hv
      generalize f.luaType = luaType at hsuits
      cases hsuits with
      | integer _ hn => cases hn
      | light => rfl
  · intro hl
    exact Or.inr ⟨_, rfl, hl ▸ .light type address⟩

end Field.IsSingle

theorem Represents.of_table {luaType : LuaType} {name : String}
    (h : Represents luaType (.table name)) : luaType = .lightUserData ∨ luaType = .table := by
  cases h with
  | lightUserData => exact Or.inl rfl
  | table => exact Or.inr rfl

/-- Of two tables, or of two other types, the words tell the type, and without a table they tell the
representation as well. -/
theorem describeSingle_eq_iff {luaType luaType' : LuaType} {type type' : ValueType}
    (htype : type.IsTable ∨ type.Simple) (htype' : type'.IsTable ∨ type'.Simple)
    (htables : type.IsTable ↔ type'.IsTable) :
    describeSingle luaType type = describeSingle luaType' type' ↔
      type = type' ∧ (type.IsTable ∨ luaType = luaType') := by
  have hnone : ∀ {type : ValueType}, type.Simple → ¬type.IsTable := by
    intro type h htable
    obtain ⟨name, rfl⟩ := htable
    cases h
  rcases htype with htable | hsimple
  · obtain ⟨name, rfl⟩ := htable
    obtain ⟨name', rfl⟩ := htables.1 ⟨name, rfl⟩
    exact ⟨fun h => ⟨congrArg _ h, Or.inl ⟨name, rfl⟩⟩, fun h => ValueType.table.inj h.1⟩
  · have hsimple' := htype'.resolve_left fun h => hnone hsimple (htables.2 h)
    rw [hsimple.describeSingle_eq_iff hsimple', and_comm]
    exact and_congr_right fun _ => (or_iff_right (hnone hsimple)).symm

/-! ## Setters -/

namespace Instance

/-- The setters of two fields take the same values, each for a record. -/
def TakesAlike (i : Instance) (t : Table) (index : Nat) (r : RecordRef) (t' : Table) (index' : Nat)
    (r' : RecordRef) : Prop :=
  ∀ owner owner' v, (callSetter owner t index r v).Succeeds i ↔
    (callSetter owner' t' index' r' v).Succeeds i

theorem callSetter_accepts_iff {s : TableSet} (hs : s.WellFormed) {i : Instance}
    (hi : i.records.Conform s) {r : RecordRef} {t : Table} {values : FieldValues}
    (hr : i.records.get? r = some ⟨t, values⟩) {index : Nat} {f : Field}
    (hf : t.fields[index]? = some f) (owner : TableRef) (v : Value) :
    (callSetter owner t index r v).Succeeds i ↔
      f.Accepts i.records.names t values (i.content v) := by
  obtain ⟨ht, hv⟩ := hi r _ hr
  have hwf := (hs.tables t ht).fields f (List.mem_of_getElem? hf)
  rw [callSetter_succeeds_iff hr, setField_isOk_iff hf, storedForm_isOk_iff hwf hv]

/-- Two fields with one type take the same values if they have one representation, and where the
type is a table, only then. -/
theorem takesAlike_iff {s : TableSet} (hs : s.WellFormed) {i : Instance}
    (hi : i.records.Conform s) {r r' : RecordRef} {t t' : Table} {values values' : FieldValues}
    (hr : i.records.get? r = some ⟨t, values⟩) (hr' : i.records.get? r' = some ⟨t', values'⟩)
    {index index' : Nat} {f g : Field} (hf : t.fields[index]? = some f)
    (hg : t'.fields[index']? = some g) {type : ValueType} (hsingle : f.IsSingle type)
    (hsingle' : g.IsSingle type) (hsame : type.IsTable ∨ f.luaType = g.luaType) :
    i.TakesAlike t index r t' index' r' ↔ f.luaType = g.luaType := by
  have hwf : f.WellFormed t :=
    (hs.tables t (hi r _ hr).1).fields f (List.mem_of_getElem? hf)
  have hwf' : g.WellFormed t' :=
    (hs.tables t' (hi r' _ hr').1).fields g (List.mem_of_getElem? hg)
  unfold TakesAlike
  simp only [callSetter_accepts_iff hs hi hr hf, callSetter_accepts_iff hs hi hr' hg]
  constructor
  · intro halike
    have hlight : f.luaType = .lightUserData ↔ g.luaType = .lightUserData :=
      (hsingle.accepts_light_iff 0).symm.trans
        ((halike globals globals (.light 0)).trans (hsingle'.accepts_light_iff 0))
    rcases hsame with ⟨name, rfl⟩ | hsame
    · rcases (hsingle.represents hwf).of_table with hl | hl
      · rw [hl, hlight.1 hl]
      · rcases (hsingle'.represents hwf').of_table with hl' | hl'
        · exact (hlight.2 hl').trans hl'.symm
        · exact hl.trans hl'.symm
    · exact hsame
  · intro hl _ _ v
    rw [hsingle.accepts_iff, hsingle'.accepts_iff, Field.MayBeUnset, Field.MayBeUnset, hl]

end Instance

/-- Of two fields with a single value of a table, or of another type, the words tell the type.  They
tell the representation unless the type is a table, and with it the values that a setter takes. -/
theorem described_alike_iff {d : Declarations} {s : TableSet}
    (hs : TableSet.ofDeclarations d = .ok s) {t t' : Table} (ht : t ∈ s.tables)
    (ht' : t' ∈ s.tables) {index index' : Nat} {f g : Field} (hf : t.fields[index]? = some f)
    (hg : t'.fields[index']? = some g) {type type' : ValueType} (hsingle : f.IsSingle type)
    (hsingle' : g.IsSingle type') (htables : type.IsTable ↔ type'.IsTable) :
    (f.describe t = g.describe t' ↔ type = type' ∧ (type.IsTable ∨ f.luaType = g.luaType)) ∧
      (f.describe t = g.describe t' →
        ∀ moves : List Move, (∀ m ∈ moves, m.Within s) → ∀ i, i = Instance.created.after moves →
        ∀ r r' values values', i.records.get? r = some ⟨t, values⟩ →
          i.records.get? r' = some ⟨t', values'⟩ →
          (i.TakesAlike t index r t' index' r' ↔ f.luaType = g.luaType)) := by
  have htype := simple_of_resolves hs ht (List.mem_of_getElem? hf) hsingle.mem_types
  have htype' := simple_of_resolves hs ht' (List.mem_of_getElem? hg) hsingle'.mem_types
  have hwords : f.describe t = g.describe t' ↔
      type = type' ∧ (type.IsTable ∨ f.luaType = g.luaType) := by
    rw [hsingle.describe_eq, hsingle'.describe_eq]
    exact describeSingle_eq_iff htype htype' htables
  refine ⟨hwords, fun halike moves hm i hi r r' values values' hr hr' => ?_⟩
  obtain ⟨rfl, hsame⟩ := hwords.1 halike
  have hsound := wellFormed_of_resolves hs
  subst hi
  exact Instance.takesAlike_iff hsound (conform_after hsound hm) hr hr' hf hg hsingle hsingle' hsame

/-- Rooms with two doors to other rooms, one of which is light userdata. -/
def roomDeclarations : Declarations where
  read := [⟨"room", "room_t", [⟨"open", none, some "self::room", .table, none, none, []⟩,
    ⟨"hidden", none, some "self::room", .lightUserData, none, none, []⟩]⟩]
  definition := []

def roomTable : Table where
  tag := "room"
  name := "room_t"
  origin := .read
  fields := [⟨"open", "open", .table, some (.table "room_t"), .one, none⟩,
    ⟨"hidden", "hidden", .lightUserData, some (.table "room_t"), .one, none⟩]

def roomSet : TableSet := ⟨[roomTable]⟩

/-- A room is made, with both doors unset. -/
def roomMoves : List Move := [.call (.accessor Instance.globals roomTable .create) []]

theorem roomMoves_within : ∀ m ∈ roomMoves, m.Within roomSet := by
  intro m hm
  rw [List.mem_singleton.1 hm]
  exact Function.belongs_iff.2
    ⟨roomTable, List.mem_cons_self, Instance.globals, .create, rfl, trivial⟩

def emptyRoom : FieldValues := ⟨[("hidden", .nil), ("open", .nil)]⟩

theorem described_alike_iff_rooms :
    TableSet.ofDeclarations roomDeclarations = .ok roomSet ∧
      (∀ m ∈ roomMoves, m.Within roomSet) ∧
      (Instance.created.after roomMoves).records.get? ⟨0⟩ = some ⟨roomTable, emptyRoom⟩ ∧
      roomTable.fields[0].describe roomTable = roomTable.fields[1].describe roomTable ∧
      ¬(Instance.created.after roomMoves).TakesAlike roomTable 0 ⟨0⟩ roomTable 1 ⟨0⟩ := by
  have haccepted : TableSet.ofDeclarations roomDeclarations = .ok roomSet := rfl
  have hroom : (Instance.created.after roomMoves).records.get? ⟨0⟩ =
      some ⟨roomTable, emptyRoom⟩ := rfl
  have htable : ValueType.IsTable (.table "room_t") := ⟨_, rfl⟩
  have hmem : roomTable ∈ roomSet.tables := List.mem_cons_self
  have hopen : roomTable.fields[0]? = some roomTable.fields[0] := rfl
  have hhidden : roomTable.fields[1]? = some roomTable.fields[1] := rfl
  obtain ⟨hwords, hsetters⟩ := described_alike_iff haccepted hmem hmem hopen hhidden
    ⟨rfl, rfl, rfl⟩ ⟨rfl, rfl, rfl⟩ Iff.rfl
  have halike := hwords.2 ⟨rfl, Or.inl htable⟩
  refine ⟨haccepted, roomMoves_within, hroom, halike, fun htakes => ?_⟩
  have hsame := (hsetters halike roomMoves roomMoves_within _ rfl _ _ _ _ hroom hroom).1 htakes
  exact absurd hsame (by decide)

/-- Both doors of a room are described by its name, but only one takes light userdata. -/
theorem doors_described_alike :
    TableSet.ofDeclarations roomDeclarations = .ok roomSet ∧
      roomTable.fields[0].describe roomTable = "room_t" ∧
      roomTable.fields[1].describe roomTable = "room_t" ∧
      roomTable.fields[0].luaType ≠ roomTable.fields[1].luaType ∧
      ¬(Instance.callSetter Instance.globals roomTable 0 ⟨0⟩ (.light 7)).Succeeds
        (Instance.created.after roomMoves) ∧
      (Instance.callSetter Instance.globals roomTable 1 ⟨0⟩ (.light 7)).Succeeds
        (Instance.created.after roomMoves) := by
  refine ⟨rfl, rfl, rfl, by decide, fun h => ?_, ⟨_, _, rfl⟩⟩
  obtain ⟨a, j, h⟩ := h
  cases congrArg Prod.fst h

end RecordTables
