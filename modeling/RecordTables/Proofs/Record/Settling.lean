import RecordTables.Proofs.Record.Setting

/-!
Contents that settle arguments.

`FieldValues.Settle` says of contents that each field holds its default, if it has no argument, and
otherwise the form in which its setter would store its argument beside these contents.  Such a form
depends on the count or the selector of its field alone, and these depend on nothing else, so there
is one way to settle arguments at most (`Settle.unique`).
-/

namespace RecordTables

/-! ## What a stored form depends on -/

/-- A field depends on its count and on its selector. -/
def Field.DependsOn (f : Field) (index : Nat) : Prop :=
  f.arity = .counted index ∨ ∃ condition, f.condition = some condition ∧ condition.field = index

/-- When a field can be set: first the fields that depend on no other, then the sequences with a
count, and then the conditional fields. -/
def Field.stage (f : Field) : Nat :=
  match f.luaType, f.arity with
  | .conditional, _ => 2
  | _, .counted _ => 1
  | _, _ => 0

theorem Content.isNil_iff {c : Content} : c.isNil = true ↔ c = .nil := by
  unfold Content.isNil
  exact decide_eq_true_iff

theorem Content.not_isNil_iff {c : Content} : (!c.isNil) = true ↔ c ≠ .nil := by
  rw [Bool.not_eq_true', ← Bool.not_eq_true, Content.isNil_iff]

theorem Field.stage_of_conditional {f : Field} (hl : f.luaType = .conditional) : f.stage = 2 := by
  unfold Field.stage
  rw [hl]

section

variable {t : Table} {f g : Field} {index : Nat}

theorem Table.IntegerAt.stage (h : t.IntegerAt index g) : g.stage = 0 := by
  unfold Field.stage
  rw [h.luaType, h.arity]

theorem Field.WellFormed.integerAt_of_dependsOn (hf : f.WellFormed t) (hd : f.DependsOn index) :
    ∃ g, t.IntegerAt index g := by
  rcases hd with ha | ⟨condition, hc, rfl⟩
  · exact hf.counter ha
  · exact (hf.condition hc).1

/-- A field that depends on another is set after it. -/
theorem Field.WellFormed.stage_pos (hf : f.WellFormed t) (hd : f.DependsOn index) :
    0 < f.stage := by
  rcases hd with ha | ⟨condition, hc, _⟩
  · unfold Field.stage
    rw [hf.luaType_of_counted ha, ha]
    exact Nat.one_pos
  · rw [Field.stage_of_conditional (hf.luaType_eq hc)]
    exact Nat.two_pos

theorem Table.WellFormed.name_ne_of_dependsOn (ht : t.WellFormed) (hf : f ∈ t.fields)
    (hd : f.DependsOn index) (hg : t.IntegerAt index g) : g.name ≠ f.name := by
  intro hname
  have hsame := ht.eq_of_name hg.mem hf hname
  have hpos := (ht.fields f hf).stage_pos hd
  rw [← hsame, hg.stage] at hpos
  exact absurd hpos (Nat.lt_irrefl 0)

end

section

variable {names : RecordNames} {t : Table} {f : Field} {values values' : FieldValues}
  {c stored : Content}

theorem FieldValues.integer?_congr {name : String} (h : values.get name = values'.get name) :
    values.integer? name = values'.integer? name := by
  unfold FieldValues.integer?
  rw [h]

theorem checkCount_congr (length : Nat)
    (h : ∀ index g, f.DependsOn index → t.fields[index]? = some g →
      values.get g.name = values'.get g.name) :
    checkCount t f values length = checkCount t f values' length := by
  unfold checkCount Table.fieldAt
  cases ha : f.arity with
  | counted index =>
    cases hg : t.fields[index]? with
    | none => simp only [hg, error_bind]
    | some g => simp only [hg, ok_bind, FieldValues.integer?_congr (h index g (.inl ha) hg)]
  | _ => rfl

theorem checkConditional_congr (c : Content)
    (h : ∀ index g, f.DependsOn index → t.fields[index]? = some g →
      values.get g.name = values'.get g.name) :
    checkConditional names t f values c = checkConditional names t f values' c := by
  unfold checkConditional Table.fieldAt
  cases hc : f.condition with
  | none => rfl
  | some condition =>
    cases hg : t.fields[condition.field]? with
    | none => simp only [hg, error_bind]
    | some g =>
      have hsame := h condition.field g (.inr ⟨condition, hc, rfl⟩) hg
      simp only [hg, ok_bind, FieldValues.integer?_congr hsame]

/-- The form in which a field stores what it is set to depends on its count and its selector, and on
nothing else that the record holds. -/
theorem storedForm_congr (c : Content)
    (h : ∀ index g, f.DependsOn index → t.fields[index]? = some g →
      values.get g.name = values'.get g.name) :
    storedForm names t f values c = storedForm names t f values' c := by
  have hcount := fun length => checkCount_congr length h
  simp only [storedForm, checkConditional_congr c h, hcount]

/-- Contents that agree in all fields but the conditional ones agree in what a field depends on. -/
theorem get_eq_of_dependsOn (ht : t.WellFormed)
    (hagree : ∀ g ∈ t.fields, g.luaType ≠ .conditional → values.get g.name = values'.get g.name)
    (hf : f ∈ t.fields) : ∀ index g, f.DependsOn index → t.fields[index]? = some g →
      values.get g.name = values'.get g.name := by
  intro index g hd hg
  obtain ⟨k, hk⟩ := (ht.fields f hf).integerAt_of_dependsOn hd
  rw [hk.eq_of_found hg]
  exact hagree k hk.mem hk.plain

theorem storedForm_of_conditional (hl : f.luaType = .conditional) (hc : c ≠ .nil) :
    storedForm names t f values c = (checkConditional names t f values c).map .single := by
  unfold storedForm
  rw [if_neg (mt Content.isNil_iff.1 hc), if_pos hl]

theorem storedForm_eq_ok_iff (hl : f.luaType ≠ .conditional) (hc : c ≠ .nil) :
    storedForm names t f values c = .ok stored ↔ checkField names t f c = .ok stored ∧
      ∀ items, stored = .sequence items → checkCount t f values items.length = .ok () := by
  unfold storedForm
  rw [if_neg (mt Content.isNil_iff.1 hc), if_neg hl]
  cases hx : checkField names t f c with
  | error refusal =>
    constructor
    · intro h
      cases h
    · intro h
      cases h.1
  | ok content =>
    cases content with
    | single v =>
      constructor
      · intro h
        cases h
        exact ⟨rfl, nofun⟩
      · intro h
        exact h.1
    | sequence items =>
      rw [map_eq_ok_iff]
      constructor
      · intro h
        obtain ⟨_, hcount, rfl⟩ := h
        refine ⟨rfl, fun items' hitems => ?_⟩
        cases hitems
        exact hcount
      · intro h
        obtain ⟨hsame, hcount⟩ := h
        cases hsame
        exact ⟨(), hcount items rfl, rfl⟩

end

/-! ## Settled arguments -/

theorem argument_nil (index : Nat) : argument [] index = .nil := rfl

theorem argument_mem {args : List Content} {index : Nat} (h : argument args index ≠ .nil) :
    argument args index ∈ args := by
  unfold argument at h ⊢
  rw [List.getD_eq_getElem?_getD] at h ⊢
  cases hindex : args[index]? with
  | none =>
    rw [hindex] at h
    exact absurd rfl h
  | some c => exact List.mem_of_getElem? hindex

/-- What a field holds for its argument, beside the contents of its record. -/
inductive Field.Settled (names : RecordNames) (t : Table) (values : FieldValues) (f : Field) :
    Content → Content → Prop
  | default : f.Settled names t values .nil f.default
  | given {arg stored : Content} (harg : arg ≠ .nil)
      (hstored : storedForm names t f values arg = .ok stored) : f.Settled names t values arg stored

/-- Each field holds what its argument asks for. -/
def FieldValues.Settle (names : RecordNames) (t : Table) (args : List Content)
    (values : FieldValues) : Prop :=
  ∀ (index : Nat) (f : Field), t.fields[index]? = some f →
    f.Settled names t values (argument args index) (values.get f.name)

section

variable {names : RecordNames} {t : Table} {args : List Content} {values values' : FieldValues}
  {f : Field} {arg c c' : Content}

theorem Field.Settled.congr (h : f.Settled names t values arg c)
    (hsame : arg ≠ .nil → ∀ index g, f.DependsOn index → t.fields[index]? = some g →
      values.get g.name = values'.get g.name) : f.Settled names t values' arg c := by
  cases h with
  | default => exact .default
  | given harg hstored =>
    rw [storedForm_congr arg (hsame harg)] at hstored
    exact .given harg hstored

theorem Field.Settled.unique (h : f.Settled names t values arg c)
    (h' : f.Settled names t values arg c') : c = c' := by
  cases h with
  | default =>
    cases h' with
    | default => rfl
    | given harg => exact absurd rfl harg
  | given harg hstored =>
    cases h' with
    | default => exact absurd rfl harg
    | given _ hstored' =>
      rw [hstored] at hstored'
      cases hstored'
      rfl

theorem Field.Settled.storedForm_eq (h : f.Settled names t values arg c) (harg : arg ≠ .nil) :
    storedForm names t f values arg = .ok c := by
  cases h with
  | default => exact absurd rfl harg
  | given _ hstored => exact hstored

/-- What a count or a selector holds for its argument is the same beside whatever contents. -/
theorem Table.IntegerAt.settled_unique (ht : t.WellFormed) {index : Nat} {g : Field}
    (hg : t.IntegerAt index g) (h : g.Settled names t values arg c)
    (h' : g.Settled names t values' arg c') : c = c' := by
  refine h.unique (h'.congr fun _ other k hd _ => ?_)
  have hpos := (ht.fields g hg.mem).stage_pos hd
  rw [hg.stage] at hpos
  exact absurd hpos (Nat.lt_irrefl 0)

theorem FieldValues.Settle.unique (ht : t.WellFormed) (h : values.Settle names t args)
    (h' : values'.Settle names t args) {f : Field} (hf : f ∈ t.fields) :
    values.get f.name = values'.get f.name := by
  obtain ⟨index, hindex⟩ := List.mem_iff_getElem?.1 hf
  refine (h index f hindex).unique ((h' index f hindex).congr fun _ other g hd hg => ?_)
  obtain ⟨g', hg'⟩ := (ht.fields f hf).integerAt_of_dependsOn hd
  rw [hg'.eq_of_found hg]
  exact (hg'.settled_unique ht (h other g' hg'.found) (h' other g' hg'.found)).symm

theorem FieldValues.Settle.default (h : values.Settle names t []) {index : Nat} {f : Field}
    (hf : t.fields[index]? = some f) : values.get f.name = f.default := by
  have hsettled := h index f hf
  rw [argument_nil] at hsettled
  exact hsettled.unique .default

end

/-! ## The records that arguments mention -/

/-- A content is a record or has it among its items. -/
inductive Content.Mentions (r : RecordRef) : Content → Prop
  | single : Mentions r (.single (.record r))
  | item {items : List Value} (h : .record r ∈ items) : Mentions r (.sequence items)

section

variable {names names' : RecordNames} {place : Place}

theorem checkRecord_congr {c : Content} (h : ∀ r, c.Mentions r → names r = names' r)
    (expected : String) :
    checkRecord names place expected c = checkRecord names' place expected c := by
  unfold checkRecord
  split
  · next r => rw [h r .single]
  · rfl

theorem checkSingle_congr {c : Content} (h : ∀ r, c.Mentions r → names r = names' r)
    (luaType : LuaType) (type : ValueType) :
    checkSingle names place luaType type c = checkSingle names' place luaType type c := by
  cases luaType with
  | table =>
    cases type with
    | table name => exact checkRecord_congr h name
    | _ => rfl
  | _ => rfl

theorem checkItem_congr {v : Value} (h : ∀ r, v = .record r → names r = names' r)
    (type : ValueType) : checkItem names place type v = checkItem names' place type v := by
  have hsingle : ∀ r, (Content.single v).Mentions r → names r = names' r := by
    intro r hr
    cases hr with
    | single => exact h r rfl
  cases type with
  | scalar s => exact checkSingle_congr hsingle _ _
  | table name => exact checkRecord_congr hsingle name
  | foreign name => rfl

theorem checkItems_congr {items : List Value}
    (h : ∀ r, .record r ∈ items → names r = names' r) (type : ValueType) (index : Nat) :
    checkItems names place type index items = checkItems names' place type index items := by
  induction items generalizing index with
  | nil => rfl
  | cons v items ih =>
    have hhead : ∀ r, v = .record r → names r = names' r :=
      fun r hr => h r (hr ▸ List.mem_cons_self)
    have htail := ih fun r hr => h r (List.mem_cons_of_mem v hr)
    simp only [checkItems, checkItem_congr hhead, htail]

/-- A check looks up no record but those that it is given. -/
theorem checkField_congr {t : Table} {c : Content} (h : ∀ r, c.Mentions r → names r = names' r)
    (f : Field) : checkField names t f c = checkField names' t f c := by
  have hsequence : ∀ arity type, checkSequence names (t.place f) arity type c =
      checkSequence names' (t.place f) arity type c := by
    intro arity type
    cases c with
    | single v => rfl
    | sequence items =>
      simp only [checkSequence, checkItems_congr fun r hr => h r (.item hr)]
  simp only [checkField, hsequence, checkSingle_congr h]

theorem storedForm_names_congr {t : Table} {f : Field} {values : FieldValues} {c : Content}
    (h : ∀ r, c.Mentions r → names r = names' r) :
    storedForm names t f values c = storedForm names' t f values c := by
  simp only [storedForm, checkConditional, checkField_congr h, checkSingle_congr h]

/-- Whether contents settle arguments depends on the records that the arguments mention. -/
theorem FieldValues.Settle.names_congr {t : Table} {args : List Content} {values : FieldValues}
    (h : values.Settle names t args)
    (hsame : ∀ c ∈ args, ∀ r, c.Mentions r → names r = names' r) :
    values.Settle names' t args := by
  intro index f hf
  have hsettled := h index f hf
  generalize harg : argument args index = arg at hsettled ⊢
  generalize values.get f.name = stored at hsettled ⊢
  cases hsettled with
  | default => exact .default
  | given hne hstored =>
    have hmem : arg ∈ args := harg ▸ argument_mem (harg ▸ hne)
    rw [storedForm_names_congr (hsame arg hmem)] at hstored
    exact .given hne hstored

end

end RecordTables
