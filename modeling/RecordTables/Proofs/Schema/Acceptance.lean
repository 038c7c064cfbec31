import RecordTables.Proofs.Schema.Resolves

/-!
Which declarations are accepted.

`Declarations.Valid` collects the rules of a document without naming the tables that it becomes.
`accepted_iff_valid` says that resolution succeeds exactly on valid documents, so it asks no more of
a document than these rules and overlooks none of them.
-/

namespace RecordTables

/-! ## The rules -/

/-- A text refers to a field that holds a single integer.  The field that refers is never that field,
for it has a count or is conditional. -/
def RefersToInteger (fields : List FieldDecl) (text : String) : Prop :=
  ∃ g ∈ fields, text = "self::" ++ g.effectiveTag ∧ g.luaType = .integer ∧ g.count = none

/-- A count is absent, a positive number, the star, or a reference. -/
def CountValid (fields : List FieldDecl) : Option CountDecl → Prop
  | none => True
  | some (.fixed n) => 1 ≤ n
  | some (.named text) => text = "*" ∨ RefersToInteger fields text

/-- A field with this count holds a sequence. -/
def CountsSequence : Option CountDecl → Prop
  | none => False
  | some (.fixed n) => n ≠ 1
  | some (.named _) => True

/-- A text declares a type of which a single value can be represented so. -/
def SingleTypeValid (tables : List TableDecl) (luaType : LuaType) (text : String) : Prop :=
  ∃ type, Declares tables text type ∧ Represents luaType type

/-- A text declares a type of which a sequence can be held.  A sequence is a Lua table, whatever its
items are, and their type is known. -/
def SequenceTypeValid (tables : List TableDecl) (luaType : LuaType) (text : String) : Prop :=
  luaType = .table ∧ ∃ type, Declares tables text type ∧ ∀ name, type ≠ .foreign name

/-- A case is not conditional itself, and its type can be held. -/
structure CaseDecl.Valid (tables : List TableDecl) (c : CaseDecl) : Prop where
  plain : c.luaType ≠ .conditional
  type : SingleTypeValid tables c.luaType c.type

/-- What is asked of a conditional field.  Its own type counts for nothing. -/
structure FieldDecl.ConditionalValid (tables : List TableDecl) (fields : List FieldDecl)
    (f : FieldDecl) : Prop where
  count : f.count = none
  condition : ∃ text, f.condition = some text ∧ RefersToInteger fields text
  nonempty : f.cases ≠ []
  selectors : (f.cases.map (·.selector)).Nodup
  cases : ∀ c ∈ f.cases, c.Valid tables

/-- What is asked of every other field. -/
structure FieldDecl.PlainValid (tables : List TableDecl) (fields : List FieldDecl)
    (f : FieldDecl) : Prop where
  condition : f.condition = none
  cases : f.cases = []
  count : CountValid fields f.count
  single : ¬CountsSequence f.count →
    ∃ text, f.type = some text ∧ SingleTypeValid tables f.luaType text
  sequence : CountsSequence f.count →
    ∃ text, f.type = some text ∧ SequenceTypeValid tables f.luaType text

/-- What is asked of a table in a document with these tables. -/
structure TableDecl.Valid (tables : List TableDecl) (t : TableDecl) : Prop where
  wellNamed : t.WellNamed
  conditional : ∀ f ∈ t.fields, f.luaType = .conditional → f.ConditionalValid tables t.fields
  plain : ∀ f ∈ t.fields, f.luaType ≠ .conditional → f.PlainValid tables t.fields

/-- What is asked of a document: the names and tags of its tables are distinct over both lists, and
each table keeps the rules. -/
structure Declarations.Valid (d : Declarations) : Prop where
  wellNamed : WellNamed (d.tables.map (·.2))
  tables : ∀ t ∈ d.tables.map (·.2), t.Valid (d.tables.map (·.2))

/-! ## The rules hold exactly of what stands for something -/

theorem refersToInteger_iff {fields : List FieldDecl} {text : String} :
    RefersToInteger fields text ↔ ∃ index, RefersTo fields text index := by
  constructor
  · intro h
    obtain ⟨g, hg, h⟩ := h
    obtain ⟨index, hindex⟩ := List.mem_iff_getElem?.1 hg
    exact ⟨index, g, hindex, h⟩
  · intro h
    obtain ⟨index, g, hindex, h⟩ := h
    exact ⟨g, List.mem_of_getElem? hindex, h⟩

theorem CountResolves.valid {fields : List FieldDecl} {count : Option CountDecl} {arity : Arity}
    (h : CountResolves fields count arity) : CountValid fields count := by
  cases h with
  | absent => trivial
  | one => exact Nat.le_refl 1
  | fixed h => exact Nat.le_of_succ_le h
  | any => exact Or.inl rfl
  | sibling h => exact Or.inr (refersToInteger_iff.2 ⟨_, h⟩)

theorem CountValid.resolves {fields : List FieldDecl} {count : Option CountDecl}
    (h : CountValid fields count) : ∃ arity, CountResolves fields count arity := by
  match count with
  | none => exact ⟨.one, .absent⟩
  | some (.fixed n) =>
    have hn : 1 ≤ n := h
    by_cases h1 : n = 1
    · subst h1
      exact ⟨.one, .one⟩
    · exact ⟨.fixed n, .fixed (by omega)⟩
  | some (.named text) =>
    rcases h with rfl | h
    · exact ⟨.unbounded, .any⟩
    · obtain ⟨index, h⟩ := refersToInteger_iff.1 h
      exact ⟨.counted index, .sibling h⟩

theorem CountResolves.countsSequence_iff {fields : List FieldDecl} {count : Option CountDecl}
    {arity : Arity} (h : CountResolves fields count arity) :
    CountsSequence count ↔ arity ≠ .one := by
  cases h with
  | absent => simp [CountsSequence]
  | one => simp [CountsSequence]
  | fixed h =>
    simp only [CountsSequence, ne_eq, reduceCtorEq, not_false_eq_true, iff_true]
    omega
  | any => simp [CountsSequence]
  | sibling => simp [CountsSequence]

theorem CaseDecl.valid_iff {tables : List TableDecl} {c : CaseDecl} :
    c.Valid tables ↔ ∃ choice, c.ResolvesTo tables choice := by
  constructor
  · intro h
    obtain ⟨hplain, type, htype, hr⟩ := h
    exact ⟨⟨c.selector, c.luaType, type⟩, rfl, rfl, hplain, htype, hr⟩
  · intro h
    obtain ⟨choice, h⟩ := h
    exact ⟨h.plain, choice.type, h.type, h.represents⟩

theorem exists_forall₂_iff {α β : Type} {R : α → β → Prop} {l : List α} :
    (∃ out, List.Forall₂ R l out) ↔ ∀ a ∈ l, ∃ b, R a b := by
  induction l with
  | nil => exact ⟨fun _ _ h => absurd h List.not_mem_nil, fun _ => ⟨[], .nil⟩⟩
  | cons a l ih =>
    rw [List.forall_mem_cons, ← ih]
    constructor
    · intro h
      obtain ⟨out, h⟩ := h
      cases h with
      | cons hb hout => exact ⟨⟨_, hb⟩, _, hout⟩
    · intro h
      obtain ⟨⟨b, hb⟩, out, hout⟩ := h
      exact ⟨b :: out, .cons hb hout⟩

theorem FieldDecl.conditionalValid_iff {tables : List TableDecl} {fields : List FieldDecl}
    {f : FieldDecl} (hl : f.luaType = .conditional) :
    f.ConditionalValid tables fields ↔ ∃ field, f.ResolvesTo tables fields field := by
  constructor
  · intro h
    obtain ⟨hn, ⟨text, hc, hr⟩, hne, hd, hcases⟩ := h
    obtain ⟨index, hindex⟩ := refersToInteger_iff.1 hr
    obtain ⟨cases, hcases⟩ := exists_forall₂_iff.2 fun c hc => CaseDecl.valid_iff.1 (hcases c hc)
    exact ⟨_, .conditional hl hn hc hindex hne hd hcases⟩
  · intro h
    obtain ⟨field, h⟩ := h
    cases h with
    | conditional _ hn hc hr hne hd hcases =>
      refine ⟨hn, ⟨_, hc, refersToInteger_iff.2 ⟨_, hr⟩⟩, hne, hd, fun c hc => ?_⟩
      exact CaseDecl.valid_iff.2 (exists_forall₂_iff.1 ⟨_, hcases⟩ c hc)
    | plain hplain => exact absurd hl hplain

theorem FieldDecl.plainValid_iff {tables : List TableDecl} {fields : List FieldDecl}
    {f : FieldDecl} (hl : f.luaType ≠ .conditional) :
    f.PlainValid tables fields ↔ ∃ field, f.ResolvesTo tables fields field := by
  constructor
  · intro h
    obtain ⟨hc, hcases, hcount, hsingle, hsequence⟩ := h
    obtain ⟨arity, harity⟩ := hcount.resolves
    by_cases hone : arity = .one
    · obtain ⟨text, ht, type, htype, hr⟩ :=
        hsingle fun h => harity.countsSequence_iff.1 h hone
      exact ⟨_, .plain hl hc hcases ht htype harity (hone ▸ .single hr)⟩
    · obtain ⟨text, ht, htable, type, htype, hknown⟩ :=
        hsequence (harity.countsSequence_iff.2 hone)
      exact ⟨_, .plain hl hc hcases ht htype harity (htable ▸ .sequence hone hknown)⟩
  · intro h
    obtain ⟨field, h⟩ := h
    cases h with
    | conditional hcond => exact absurd hcond hl
    | @plain text type arity _ hc hcases ht htype harity hfits =>
      refine ⟨hc, hcases, harity.valid, fun hcount => ?_, fun hcount => ?_⟩
      · have hone : arity = .one := by
          by_contra hne
          exact hcount (harity.countsSequence_iff.2 hne)
        rw [hone, fits_one_iff] at hfits
        exact ⟨text, ht, type, htype, hfits⟩
      · obtain ⟨htable, hknown⟩ :=
          (fits_sequence_iff (harity.countsSequence_iff.1 hcount)).1 hfits
        exact ⟨text, ht, htable, type, htype, hknown⟩

theorem TableDecl.valid_iff {tables : List TableDecl} {t : Origin × TableDecl} :
    t.2.Valid tables ↔ ∃ out, TableDecl.ResolvesTo tables t out := by
  have hfield : ∀ f, (∃ field, FieldDecl.ResolvesTo tables t.2.fields f field) ↔
      (f.luaType = .conditional → f.ConditionalValid tables t.2.fields) ∧
        (f.luaType ≠ .conditional → f.PlainValid tables t.2.fields) := by
    intro f
    by_cases hl : f.luaType = .conditional
    · simp [hl, FieldDecl.conditionalValid_iff hl]
    · simp [hl, FieldDecl.plainValid_iff hl]
  constructor
  · intro h
    obtain ⟨hw, hcond, hplain⟩ := h
    obtain ⟨fields, hfields⟩ :=
      exists_forall₂_iff.2 fun f hf => (hfield f).2 ⟨hcond f hf, hplain f hf⟩
    exact ⟨⟨t.2.tag, t.2.name, t.1, fields⟩, hw, rfl, rfl, rfl, hfields⟩
  · intro h
    obtain ⟨out, h⟩ := h
    have hfields := fun f hf => (hfield f).1 (exists_forall₂_iff.1 ⟨_, h.fields⟩ f hf)
    exact ⟨h.wellNamed, fun f hf => (hfields f hf).1, fun f hf => (hfields f hf).2⟩

/-- Declarations are accepted exactly if they keep the rules. -/
theorem accepted_iff_valid {d : Declarations} :
    (∃ s, TableSet.ofDeclarations d = .ok s) ↔ d.Valid := by
  simp only [resolves_iff]
  constructor
  · intro h
    obtain ⟨s, h⟩ := h
    refine ⟨h.wellNamed, ?_⟩
    rw [List.forall_mem_map]
    intro t ht
    exact TableDecl.valid_iff.2 (exists_forall₂_iff.1 ⟨_, h.tables⟩ t ht)
  · intro h
    obtain ⟨hw, hvalid⟩ := h
    rw [List.forall_mem_map] at hvalid
    obtain ⟨tables, htables⟩ :=
      exists_forall₂_iff.2 fun t ht => TableDecl.valid_iff.1 (hvalid t ht)
    exact ⟨⟨tables⟩, hw, htables⟩

end RecordTables
