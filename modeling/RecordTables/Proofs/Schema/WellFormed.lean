import RecordTables.Proofs.Schema.Resolves

/-!
Tables whose references hold.

`TableSet.WellFormed` is what the functions of records need of the tables they work on: the names in
a table are distinct, each type can be held in the way its field holds it, and counts and selectors
are single integers.  Every table set that comes from declarations has it, which is
`wellFormed_of_resolves`.
-/

namespace RecordTables

/-- The field at an index holds a single integer. -/
structure Table.IntegerAt (t : Table) (index : Nat) (g : Field) : Prop where
  found : t.fields[index]? = some g
  luaType : g.luaType = .integer
  arity : g.arity = .one

/-- What a field of a table needs.  It holds a single value, a sequence, or one of several types. -/
inductive Field.WellFormed (t : Table) (f : Field) : Prop
  | single {type : ValueType} (ha : f.arity = .one) (hc : f.condition = none)
      (ht : f.type = some type) (hr : Represents f.luaType type)
  | sequence {type : ValueType} (ha : f.arity ≠ .one) (hc : f.condition = none)
      (ht : f.type = some type) (hl : f.luaType = .table) (hknown : ∀ name, type ≠ .foreign name)
      (hcounter : ∀ index, f.arity = .counted index → ∃ g, t.IntegerAt index g)
  | conditional {condition : Condition} (ha : f.arity = .one) (hc : f.condition = some condition)
      (hl : f.luaType = .conditional) (hselector : ∃ g, t.IntegerAt condition.field g)
      (hcases : ∀ choice ∈ condition.cases, Represents choice.luaType choice.type)

structure Table.WellFormed (t : Table) : Prop where
  names : (t.fields.map (·.name)).Nodup
  fields : ∀ f ∈ t.fields, f.WellFormed t

structure TableSet.WellFormed (s : TableSet) : Prop where
  names : (s.tables.map (·.name)).Nodup
  tables : ∀ t ∈ s.tables, t.WellFormed

section

variable {t : Table} {index : Nat} {g : Field}

theorem Table.IntegerAt.mem (h : t.IntegerAt index g) : g ∈ t.fields :=
  List.mem_of_getElem? h.found

theorem Table.IntegerAt.eq_of_found (h : t.IntegerAt index g) {f : Field}
    (hf : t.fields[index]? = some f) : f = g :=
  Option.some.inj (hf.symm.trans h.found)

theorem Table.IntegerAt.plain (h : t.IntegerAt index g) : g.luaType ≠ .conditional := by
  rw [h.luaType]
  decide

end

theorem not_represents_conditional {type : ValueType} : ¬Represents .conditional type := by
  intro h
  cases h

theorem Field.WellFormed.luaType_ne {t : Table} {f : Field} (h : f.WellFormed t)
    (hc : f.condition = none) : f.luaType ≠ .conditional := by
  intro hl
  cases h with
  | single _ _ _ hr =>
    rw [hl] at hr
    exact not_represents_conditional hr
  | sequence _ _ _ htable =>
    rw [hl] at htable
    cases htable
  | conditional _ hsome =>
    rw [hc] at hsome
    cases hsome

theorem Field.WellFormed.luaType_eq {t : Table} {f : Field} (h : f.WellFormed t)
    {condition : Condition} (hc : f.condition = some condition) : f.luaType = .conditional := by
  cases h with
  | single _ hnone =>
    rw [hc] at hnone
    cases hnone
  | sequence _ hnone =>
    rw [hc] at hnone
    cases hnone
  | conditional _ _ hl => exact hl

theorem Field.WellFormed.condition_eq_none {t : Table} {f : Field} (h : f.WellFormed t)
    (hl : f.luaType ≠ .conditional) : f.condition = none := by
  cases hc : f.condition with
  | none => rfl
  | some condition => exact absurd (h.luaType_eq hc) hl

theorem Field.WellFormed.condition {t : Table} {f : Field} (h : f.WellFormed t)
    {condition : Condition} (hc : f.condition = some condition) :
    (∃ g, t.IntegerAt condition.field g) ∧
      ∀ choice ∈ condition.cases, Represents choice.luaType choice.type := by
  cases h with
  | single _ hnone =>
    rw [hc] at hnone
    cases hnone
  | sequence _ hnone =>
    rw [hc] at hnone
    cases hnone
  | conditional _ hsome _ hselector hcases =>
    rw [hc] at hsome
    cases hsome
    exact ⟨hselector, hcases⟩

theorem Field.WellFormed.counter {t : Table} {f : Field} (hf : f.WellFormed t) {index : Nat}
    (ha : f.arity = .counted index) : ∃ g, t.IntegerAt index g := by
  cases hf with
  | single hone =>
    rw [ha] at hone
    cases hone
  | sequence _ _ _ _ _ hcounter => exact hcounter index ha
  | conditional hone =>
    rw [ha] at hone
    cases hone

/-- A field with a sequence is a table of Lua and has no cases. -/
theorem Field.WellFormed.of_sequence {t : Table} {f : Field} (hf : f.WellFormed t)
    (ha : f.arity ≠ .one) : f.luaType = .table ∧ f.condition = none := by
  cases hf with
  | single hone => exact absurd hone ha
  | sequence _ hc _ hl => exact ⟨hl, hc⟩
  | conditional hone => exact absurd hone ha

theorem Field.WellFormed.arity_of_luaType {t : Table} {f : Field} (hf : f.WellFormed t)
    (hl : f.luaType ≠ .table) : f.arity = .one := by
  by_contra ha
  exact hl (hf.of_sequence ha).1

theorem Field.WellFormed.luaType_of_counted {t : Table} {f : Field} (hf : f.WellFormed t)
    {index : Nat} (ha : f.arity = .counted index) : f.luaType = .table := by
  refine (hf.of_sequence ?_).1
  rw [ha]
  exact Arity.noConfusion

theorem Field.WellFormed.plain_of_counted {t : Table} {f : Field} (hf : f.WellFormed t)
    {index : Nat} (ha : f.arity = .counted index) : f.luaType ≠ .conditional := by
  rw [hf.luaType_of_counted ha]
  decide

/-- A field that has a count is none itself. -/
theorem Field.WellFormed.ne_integer_of_counted {t : Table} {f : Field} (hf : f.WellFormed t)
    {index : Nat} (ha : f.arity = .counted index) : f.luaType ≠ .integer := by
  rw [hf.luaType_of_counted ha]
  decide

/-- Fields of a table with one name are one field. -/
theorem Table.WellFormed.eq_of_name {t : Table} (h : t.WellFormed) {f g : Field}
    (hf : f ∈ t.fields) (hg : g ∈ t.fields) (hname : f.name = g.name) : f = g :=
  List.inj_on_of_nodup_map h.names hf hg hname

theorem Table.WellFormed.name_ne {t : Table} (h : t.WellFormed) {f g : Field}
    (hf : f ∈ t.fields) (hg : g ∈ t.fields) (hne : f.luaType ≠ g.luaType) : f.name ≠ g.name := by
  intro hname
  exact hne (congrArg Field.luaType (h.eq_of_name hf hg hname))

theorem Table.WellFormed.index_eq {t : Table} (h : t.WellFormed) {i j : Nat} {f g : Field}
    (hf : t.fields[i]? = some f) (hg : t.fields[j]? = some g) (hname : f.name = g.name) : i = j :=
  index_eq_of_key h.names hf hg hname

theorem Table.WellFormed.counted_name_ne {t : Table} (h : t.WellFormed) {index : Nat} {f g : Field}
    (hf : f ∈ t.fields) (ha : f.arity = .counted index) (hg : t.IntegerAt index g) :
    f.name ≠ g.name := by
  refine h.name_ne hf hg.mem ?_
  rw [hg.luaType]
  exact (h.fields f hf).ne_integer_of_counted ha

/-! ## Tables that come from declarations -/

/-- Lists that are related element by element agree in whatever related elements agree in. -/
theorem map_eq_map_of_forall₂ {α β γ : Type} {R : α → β → Prop} {f : α → γ} {g : β → γ}
    (hfg : ∀ a b, R a b → f a = g b) {l : List α} {out : List β} (h : List.Forall₂ R l out) :
    l.map f = out.map g := by
  induction h with
  | nil => rfl
  | cons hab _ ih => rw [List.map_cons, List.map_cons, hfg _ _ hab, ih]

theorem exists_getElem?_of_forall₂ {α β : Type} {R : α → β → Prop} {l : List α} {out : List β}
    (h : List.Forall₂ R l out) {n : Nat} {a : α} (ha : l[n]? = some a) :
    ∃ b, out[n]? = some b ∧ R a b := by
  obtain ⟨hn, rfl⟩ := List.getElem?_eq_some_iff.1 ha
  have hout : n < out.length := h.length_eq ▸ hn
  exact ⟨out[n], List.getElem?_eq_getElem hout, h.get hn hout⟩

theorem exists_mem_of_forall₂ {α β : Type} {R : α → β → Prop} {l : List α} {out : List β}
    (h : List.Forall₂ R l out) {b : β} (hb : b ∈ out) : ∃ a ∈ l, R a b := by
  obtain ⟨n, hn⟩ := List.mem_iff_getElem?.1 hb
  obtain ⟨a, ha, hab⟩ := exists_getElem?_of_forall₂ h.flip hn
  exact ⟨a, List.mem_of_getElem? ha, hab⟩

theorem FieldDecl.ResolvesTo.name_eq {tables : List TableDecl} {fields : List FieldDecl}
    {f : FieldDecl} {field : Field} (h : f.ResolvesTo tables fields field) :
    f.name = field.name := by
  cases h <;> rfl

theorem FieldDecl.ResolvesTo.luaType_eq {tables : List TableDecl} {fields : List FieldDecl}
    {f : FieldDecl} {field : Field} (h : f.ResolvesTo tables fields field) :
    field.luaType = f.luaType := by
  cases h <;> rfl

/-- A field without a count holds a single value. -/
theorem FieldDecl.ResolvesTo.arity_eq {tables : List TableDecl} {fields : List FieldDecl}
    {f : FieldDecl} {field : Field} (h : f.ResolvesTo tables fields field)
    (hn : f.count = none) : field.arity = .one := by
  cases h with
  | conditional => rfl
  | plain _ _ _ _ _ hcount =>
    rw [hn] at hcount
    cases hcount
    rfl

section

variable {tables : List TableDecl} {t : Origin × TableDecl} {out : Table}

theorem TableDecl.ResolvesTo.integerAt (h : TableDecl.ResolvesTo tables t out) {text : String}
    {index : Nat} (hr : RefersTo t.2.fields text index) : ∃ g, out.IntegerAt index g := by
  obtain ⟨decl, hdecl, _, hl, hn⟩ := hr
  obtain ⟨g, hg, hres⟩ := exists_getElem?_of_forall₂ h.fields hdecl
  exact ⟨g, hg, hres.luaType_eq.trans hl, hres.arity_eq hn⟩

theorem TableDecl.ResolvesTo.counter (h : TableDecl.ResolvesTo tables t out)
    {count : Option CountDecl} {index : Nat}
    (hcount : CountResolves t.2.fields count (.counted index)) : ∃ g, out.IntegerAt index g := by
  cases hcount with
  | sibling hr => exact h.integerAt hr

theorem TableDecl.ResolvesTo.fieldWellFormed (h : TableDecl.ResolvesTo tables t out) {f : FieldDecl}
    {field : Field} (hf : f.ResolvesTo tables t.2.fields field) : field.WellFormed out := by
  cases hf with
  | conditional hl _ _ hr _ _ hcases =>
    refine .conditional rfl rfl hl (h.integerAt hr) ?_
    intro choice hchoice
    obtain ⟨c, _, hc⟩ := exists_mem_of_forall₂ hcases hchoice
    rw [hc.luaType]
    exact hc.represents
  | @plain _ type arity _ _ _ _ _ hcount hfits =>
    by_cases hone : arity = .one
    · subst hone
      exact .single rfl rfl rfl (fits_one_iff.1 hfits)
    · obtain ⟨hl, hknown⟩ := (fits_sequence_iff hone).1 hfits
      refine .sequence hone rfl rfl hl hknown ?_
      intro index hindex
      have hcounted : arity = .counted index := hindex
      rw [hcounted] at hcount
      exact h.counter hcount

theorem TableDecl.ResolvesTo.wellFormed (h : TableDecl.ResolvesTo tables t out) :
    out.WellFormed := by
  constructor
  · rw [← map_eq_map_of_forall₂ (fun _ _ hf => hf.name_eq) h.fields]
    exact h.wellNamed.names
  · intro field hfield
    obtain ⟨f, _, hf⟩ := exists_mem_of_forall₂ h.fields hfield
    exact h.fieldWellFormed hf

end

/-- Resolution makes only table sets whose references hold. -/
theorem wellFormed_of_resolves {d : Declarations} {s : TableSet}
    (h : TableSet.ofDeclarations d = .ok s) : s.WellFormed := by
  have hres := resolves_iff.1 h
  constructor
  · have hnames := hres.wellNamed.names
    rw [List.map_map] at hnames
    rw [← map_eq_map_of_forall₂ (fun _ _ ht => ht.name.symm) hres.tables]
    exact hnames
  · intro out hout
    obtain ⟨t, _, ht⟩ := exists_mem_of_forall₂ hres.tables hout
    exact ht.wellFormed

/-! ## Names of accepted sets -/

theorem identifiers_of_resolves {d : Declarations} {s : TableSet}
    (hs : TableSet.ofDeclarations d = .ok s) : ∀ name ∈ s.names, IsIdentifier name := by
  have hresolves := resolves_iff.1 hs
  intro name hname
  obtain ⟨t, ht, rfl⟩ := List.mem_map.1 hname
  obtain ⟨declared, hdeclared, h⟩ := exists_mem_of_forall₂ hresolves.tables ht
  rw [h.name]
  exact hresolves.wellNamed.identifiers _ (List.mem_map_of_mem hdeclared)

/-- The names of the fields of an accepted set are identifiers, as those of its tables are. -/
theorem fieldIdentifiers_of_resolves {d : Declarations} {s : TableSet}
    (hs : TableSet.ofDeclarations d = .ok s) :
    ∀ t ∈ s.tables, ∀ f ∈ t.fields, IsIdentifier f.name := by
  intro t ht f hf
  obtain ⟨declared, _, h⟩ := exists_mem_of_forall₂ (resolves_iff.1 hs).tables ht
  obtain ⟨g, hg, hfield⟩ := exists_mem_of_forall₂ h.fields hf
  rw [← hfield.name_eq]
  exact h.wellNamed.identifiers g hg

/-- The types that a field may have: the one it is declared with, or those of its cases. -/
def Field.types (f : Field) : List ValueType :=
  f.type.toList ++ f.condition.toList.flatMap fun condition => condition.cases.map (·.type)

/-- Every type of a field is declared by some text. -/
theorem declares_of_resolves {d : Declarations} {s : TableSet}
    (hs : TableSet.ofDeclarations d = .ok s) {t : Table} (ht : t ∈ s.tables) {f : Field}
    (hf : f ∈ t.fields) {type : ValueType} (htype : type ∈ f.types) :
    ∃ text, Declares (d.tables.map (·.2)) text type := by
  obtain ⟨declared, _, h⟩ := exists_mem_of_forall₂ (resolves_iff.1 hs).tables ht
  obtain ⟨g, _, hfield⟩ := exists_mem_of_forall₂ h.fields hf
  cases hfield with
  | @conditional _ _ cases _ _ _ _ _ _ hcases =>
    obtain ⟨choice, hchoice, rfl⟩ : ∃ choice ∈ cases, choice.type = type := by
      simpa [Field.types] using htype
    obtain ⟨c, _, hc⟩ := exists_mem_of_forall₂ hcases hchoice
    exact ⟨c.type, hc.type⟩
  | @plain text type' _ _ _ _ _ hdeclares =>
    have heq : type = type' := by simpa [Field.types] using htype
    exact ⟨text, heq ▸ hdeclares⟩

/-- A field refers to tables of its set only. -/
theorem referred_of_resolves {d : Declarations} {s : TableSet}
    (hs : TableSet.ofDeclarations d = .ok s) {t : Table} (ht : t ∈ s.tables) {f : Field}
    (hf : f ∈ t.fields) {name : String} (hname : .table name ∈ f.types) : name ∈ s.names := by
  have hnames : (d.tables.map (·.2)).map (·.name) = s.names := by
    rw [List.map_map]
    exact map_eq_map_of_forall₂ (fun _ _ h => h.name.symm) (resolves_iff.1 hs).tables
  obtain ⟨text, hdeclares⟩ := declares_of_resolves hs ht hf hname
  cases hdeclares with
  | table hmem =>
    rw [← hnames]
    exact List.mem_map_of_mem hmem

/-- No scalar type is taken for an unknown one. -/
theorem foreign_of_resolves {d : Declarations} {s : TableSet}
    (hs : TableSet.ofDeclarations d = .ok s) {t : Table} (ht : t ∈ s.tables) {f : Field}
    (hf : f ∈ t.fields) {name : String} (hname : .foreign name ∈ f.types) (s : ScalarType) :
    name ≠ s.name := by
  obtain ⟨text, hdeclares⟩ := declares_of_resolves hs ht hf hname
  cases hdeclares with
  | foreign _ hscalar => exact hscalar s

end RecordTables
