import RecordTables.Proofs.Schema.Acceptance

/-!
Counts of one.

A field with a count of one holds a single value, as it does without a count.  Resolution makes a
difference between the two all the same: a conditional field must not have the count, and no other
count and no condition may refer to a field that has it.  `accepted_iff_withoutOnes` says that these
are the only differences, and `one_refused` shows one of them.
-/

namespace RecordTables

/-- A declared count, unless it is one. -/
def countWithoutOne : Option CountDecl → Option CountDecl
  | some (.fixed 1) => none
  | count => count

def FieldDecl.withoutOne (f : FieldDecl) : FieldDecl := { f with count := countWithoutOne f.count }

def TableDecl.withoutOnes (t : TableDecl) : TableDecl :=
  { t with fields := t.fields.map FieldDecl.withoutOne }

/-- The declarations without the counts that are one. -/
def Declarations.withoutOnes (d : Declarations) : Declarations :=
  ⟨d.read.map TableDecl.withoutOnes, d.definition.map TableDecl.withoutOnes⟩

/-- A field refers to another one by its count or its condition. -/
def FieldDecl.Reads (f g : FieldDecl) : Prop :=
  f.count = some (.named (referenceMark ++ g.effectiveTag)) ∨
    f.condition = some (referenceMark ++ g.effectiveTag)

/-- No field with a count of one is conditional, and none is referred to. -/
structure TableDecl.OnesUnread (t : TableDecl) : Prop where
  plain : ∀ f ∈ t.fields, f.count = some (.fixed 1) → f.luaType ≠ .conditional
  unread : ∀ f ∈ t.fields, f.count = some (.fixed 1) → ∀ g ∈ t.fields, ¬g.Reads f

/-! ## References and counts -/

theorem countWithoutOne_eq_none_iff {count : Option CountDecl} :
    countWithoutOne count = none ↔ count = none ∨ count = some (.fixed 1) := by
  unfold countWithoutOne
  split <;> simp_all

section

variable {fields : List FieldDecl} {text : String} {index : Nat}

theorem RefersTo.withoutOne (h : RefersTo fields text index) :
    RefersTo (fields.map FieldDecl.withoutOne) text index := by
  obtain ⟨g, hg, htext, hl, hcount⟩ := h
  refine ⟨g.withoutOne, ?_, htext, hl, countWithoutOne_eq_none_iff.2 (.inl hcount)⟩
  rw [List.getElem?_map, hg, Option.map_some]

theorem RefersTo.of_withoutOne (h : RefersTo (fields.map FieldDecl.withoutOne) text index)
    (hones : ∀ g ∈ fields, g.count = some (.fixed 1) → text ≠ referenceMark ++ g.effectiveTag) :
    RefersTo fields text index := by
  obtain ⟨g', hg', htext, hl, hcount⟩ := h
  rw [List.getElem?_map, Option.map_eq_some_iff] at hg'
  obtain ⟨g, hg, rfl⟩ := hg'
  refine ⟨g, hg, htext, hl, ?_⟩
  rcases countWithoutOne_eq_none_iff.1 hcount with hnone | hone
  · exact hnone
  · exact absurd htext (hones g (List.mem_of_getElem? hg) hone)

/-- What a reference refers to has no count. -/
theorem RefersTo.count_eq_none (htags : (fields.map (·.effectiveTag)).Nodup) {f : FieldDecl}
    (hf : f ∈ fields) (h : RefersTo fields (referenceMark ++ f.effectiveTag) index) :
    f.count = none := by
  obtain ⟨g, hg, htext, _, hcount⟩ := h
  have htag : f.effectiveTag = g.effectiveTag :=
    Option.some.inj ((referent?_eq_some_iff.2 rfl).symm.trans (referent?_eq_some_iff.2 htext))
  rw [List.inj_on_of_nodup_map htags hf (List.mem_of_getElem? hg) htag]
  exact hcount

variable {count : Option CountDecl} {arity : Arity}

theorem CountResolves.withoutOne (h : CountResolves fields count arity) :
    CountResolves (fields.map FieldDecl.withoutOne) (countWithoutOne count) arity := by
  cases h with
  | absent => exact .absent
  | one => exact .absent
  | @fixed n hn =>
    have hkept : countWithoutOne (some (.fixed n)) = some (.fixed n) := by
      unfold countWithoutOne
      split
      · next heq =>
        cases heq
        omega
      · rfl
    rw [hkept]
    exact .fixed hn
  | any => exact .any
  | sibling hr => exact .sibling hr.withoutOne

theorem CountResolves.of_withoutOne
    (h : CountResolves (fields.map FieldDecl.withoutOne) (countWithoutOne count) arity)
    (hones : ∀ g ∈ fields, g.count = some (.fixed 1) →
      count ≠ some (.named (referenceMark ++ g.effectiveTag))) :
    CountResolves fields count arity := by
  generalize hc : countWithoutOne count = kept at h
  have hkept : ∀ {c}, kept = some c → count = some c := by
    intro c hsome
    rw [← hc] at hsome
    unfold countWithoutOne at hsome
    split at hsome
    · cases hsome
    · exact hsome
  cases h with
  | absent =>
    rcases countWithoutOne_eq_none_iff.1 hc with rfl | rfl
    · exact .absent
    · exact .one
  | one =>
    rw [hkept rfl]
    exact .one
  | fixed hn =>
    rw [hkept rfl]
    exact .fixed hn
  | any =>
    rw [hkept rfl]
    exact .any
  | sibling hr =>
    rw [hkept rfl] at hones ⊢
    refine .sibling (hr.of_withoutOne fun g hg hone htext => ?_)
    exact hones g hg hone (htext ▸ rfl)

end

/-! ## Fields and tables -/

section

variable {tables : List TableDecl} {fields : List FieldDecl}

theorem withoutOnes_has (t : TableDecl) (ht : t ∈ tables) :
    ∃ u ∈ tables.map TableDecl.withoutOnes, u.tag = t.tag ∧ u.name = t.name :=
  ⟨t.withoutOnes, List.mem_map_of_mem ht, rfl, rfl⟩

theorem withoutOnes_from (u : TableDecl) (hu : u ∈ tables.map TableDecl.withoutOnes) :
    ∃ t ∈ tables, t.tag = u.tag ∧ t.name = u.name := by
  obtain ⟨t, ht, rfl⟩ := List.mem_map.1 hu
  exact ⟨t, ht, rfl, rfl⟩

theorem FieldDecl.ResolvesTo.withoutOne {f : FieldDecl} {field : Field}
    (h : f.ResolvesTo tables fields field) :
    f.withoutOne.ResolvesTo (tables.map TableDecl.withoutOnes) (fields.map FieldDecl.withoutOne)
      field := by
  cases h with
  | conditional hl hn hc hr hne hd hcases =>
    exact .conditional hl (countWithoutOne_eq_none_iff.2 (.inl hn)) hc hr.withoutOne hne hd
      (hcases.imp fun _ _ hcase => hcase.mono withoutOnes_has)
  | plain hl hc hcases ht htype hn hfits =>
    exact .plain hl hc hcases ht (htype.mono withoutOnes_has) hn.withoutOne hfits

theorem FieldDecl.ResolvesTo.of_withoutOne {f : FieldDecl} {field : Field}
    (h : f.withoutOne.ResolvesTo (tables.map TableDecl.withoutOnes)
      (fields.map FieldDecl.withoutOne) field)
    (hplain : f.count = some (.fixed 1) → f.luaType ≠ .conditional)
    (hunread : ∀ g ∈ fields, g.count = some (.fixed 1) → ¬f.Reads g) :
    f.ResolvesTo tables fields field := by
  cases h with
  | conditional hl hn hc hr hne hd hcases =>
    have hcount : f.count = none := by
      rcases countWithoutOne_eq_none_iff.1 hn with hnone | hone
      · exact hnone
      · exact absurd hl (hplain hone)
    have hrefers := hr.of_withoutOne fun g hg hone htext =>
      hunread g hg hone (.inr (htext ▸ hc))
    exact .conditional hl hcount hc hrefers hne hd
      (hcases.imp fun _ _ hcase => hcase.mono withoutOnes_from)
  | plain hl hc hcases ht htype hn hfits =>
    have hcount := hn.of_withoutOne fun g hg hone hnamed => hunread g hg hone (.inl hnamed)
    exact .plain hl hc hcases ht (htype.mono withoutOnes_from) hcount hfits

/-- A field that stands for something reads no field with a count of one. -/
theorem FieldDecl.ResolvesTo.not_reads (htags : (fields.map (·.effectiveTag)).Nodup)
    {f g : FieldDecl} {field : Field} (h : f.ResolvesTo tables fields field) (hg : g ∈ fields)
    (hone : g.count = some (.fixed 1)) : ¬f.Reads g := by
  have hnot : ∀ index, ¬RefersTo fields (referenceMark ++ g.effectiveTag) index := by
    intro index hr
    rw [hr.count_eq_none htags hg] at hone
    cases hone
  intro hreads
  cases h with
  | conditional _ hn hc hr =>
    rcases hreads with hcount | hcondition
    · cases hn.symm.trans hcount
    · cases hc.symm.trans hcondition
      exact hnot _ hr
  | plain _ hc _ _ _ hn =>
    rcases hreads with hcount | hcondition
    · rw [hcount] at hn
      generalize htext : referenceMark ++ g.effectiveTag = text at hn
      cases hn with
      | any =>
        have href := referent?_eq_some_iff.2 htext.symm
        rw [referent?_anyCount] at href
        cases href
      | sibling hr => exact hnot _ (htext ▸ hr)
    · cases hc.symm.trans hcondition

theorem FieldDecl.ResolvesTo.plain_of_one {f : FieldDecl} {field : Field}
    (h : f.ResolvesTo tables fields field) (hone : f.count = some (.fixed 1)) :
    f.luaType ≠ .conditional := by
  cases h with
  | conditional _ hn => cases hn.symm.trans hone
  | plain hl => exact hl

theorem TableDecl.wellNamed_withoutOnes_iff {t : TableDecl} :
    t.withoutOnes.WellNamed ↔ t.WellNamed := by
  have hnames : t.withoutOnes.fields.map (·.name) = t.fields.map (·.name) := List.map_map
  have htags : t.withoutOnes.fields.map (·.effectiveTag) = t.fields.map (·.effectiveTag) :=
    List.map_map
  have hall : ∀ p : String → Prop,
      (∀ f ∈ t.withoutOnes.fields, p f.name) ↔ ∀ f ∈ t.fields, p f.name :=
    fun p => List.forall_mem_map
  constructor
  · intro h
    refine ⟨(hall _).1 h.identifiers, (hall (· ≠ constructorName)).1 h.noConstructor,
      hnames ▸ h.names, htags ▸ h.tags, ?_⟩
    exact (hall fun name => ∀ g ∈ t.fields, g.name ≠ setterName name).1 fun f hf =>
      (hall (· ≠ setterName f.name)).1 (h.noSetter f hf)
  · intro h
    refine ⟨(hall _).2 h.identifiers, (hall (· ≠ constructorName)).2 h.noConstructor,
      hnames ▸ h.names, htags ▸ h.tags, ?_⟩
    exact (hall fun name => ∀ g ∈ t.withoutOnes.fields, g.name ≠ setterName name).2 fun f hf =>
      (hall (· ≠ setterName f.name)).2 (h.noSetter f hf)

theorem wellNamed_withoutOnes_iff :
    WellNamed (tables.map TableDecl.withoutOnes) ↔ WellNamed tables := by
  have hnames : (tables.map TableDecl.withoutOnes).map (·.name) = tables.map (·.name) :=
    List.map_map
  have htags : (tables.map TableDecl.withoutOnes).map (·.tag) = tables.map (·.tag) := List.map_map
  constructor
  · intro h
    exact ⟨fun t ht => h.identifiers t.withoutOnes (List.mem_map_of_mem ht), hnames ▸ h.names,
      htags ▸ h.tags⟩
  · intro h
    exact ⟨List.forall_mem_map.2 fun t ht => h.identifiers t ht, hnames ▸ h.names,
      htags ▸ h.tags⟩

theorem TableDecl.ResolvesTo.onesUnread {t : Origin × TableDecl} {out : Table}
    (h : TableDecl.ResolvesTo tables t out) : t.2.OnesUnread := by
  have hfield := exists_forall₂_iff.1 ⟨out.fields, h.fields⟩
  constructor
  · intro f hf hone
    obtain ⟨field, hres⟩ := hfield f hf
    exact hres.plain_of_one hone
  · intro f hf hone g hg
    obtain ⟨field, hres⟩ := hfield g hg
    exact hres.not_reads h.wellNamed.tags hf hone

theorem TableDecl.OnesUnread.fields_iff {t : TableDecl} (h : t.OnesUnread) {out : List Field} :
    List.Forall₂ (FieldDecl.ResolvesTo (tables.map TableDecl.withoutOnes) t.withoutOnes.fields)
        t.withoutOnes.fields out ↔
      List.Forall₂ (FieldDecl.ResolvesTo tables t.fields) t.fields out := by
  refine List.forall₂_map_left_iff.trans (forall₂_congr_left fun f hf field => ?_)
  refine ⟨fun hres => ?_, FieldDecl.ResolvesTo.withoutOne⟩
  exact hres.of_withoutOne (h.plain f hf) fun g hg hone => h.unread g hg hone f hf

/-- A table stands for the same without its counts of one, as long as these are unread. -/
theorem TableDecl.resolvesTo_iff_withoutOnes {t : Origin × TableDecl} {out : Table} :
    TableDecl.ResolvesTo tables t out ↔
      t.2.OnesUnread ∧
        TableDecl.ResolvesTo (tables.map TableDecl.withoutOnes) (t.1, t.2.withoutOnes) out := by
  constructor
  · intro h
    have hones := h.onesUnread
    exact ⟨hones, wellNamed_withoutOnes_iff.2 h.wellNamed, h.tag, h.name, h.origin,
      hones.fields_iff.2 h.fields⟩
  · intro h
    obtain ⟨hones, h⟩ := h
    exact ⟨wellNamed_withoutOnes_iff.1 h.wellNamed, h.tag, h.name, h.origin,
      hones.fields_iff.1 h.fields⟩

end

/-! ## Documents -/

theorem Declarations.tables_withoutOnes (d : Declarations) :
    d.withoutOnes.tables = d.tables.map fun t => (t.1, t.2.withoutOnes) := by
  unfold Declarations.tables Declarations.withoutOnes
  rw [List.map_append, List.map_map, List.map_map, List.map_map, List.map_map]
  rfl

/-- Declarations are accepted as a table set exactly if they are accepted as the same set without
their counts of one, and in no table such a count is read. -/
theorem accepted_iff_withoutOnes {d : Declarations} {s : TableSet} :
    TableSet.ofDeclarations d = .ok s ↔
      TableSet.ofDeclarations d.withoutOnes = .ok s ∧ ∀ t ∈ d.tables, t.2.OnesUnread := by
  have htables : d.withoutOnes.tables.map (·.2) =
      (d.tables.map (·.2)).map TableDecl.withoutOnes := by
    rw [d.tables_withoutOnes, List.map_map, List.map_map]
    rfl
  have hresolves : List.Forall₂ (TableDecl.ResolvesTo (d.tables.map (·.2))) d.tables s.tables ↔
      (∀ t ∈ d.tables, t.2.OnesUnread) ∧
        List.Forall₂ (TableDecl.ResolvesTo (d.withoutOnes.tables.map (·.2))) d.withoutOnes.tables
          s.tables := by
    rw [htables, d.tables_withoutOnes, List.forall₂_map_left_iff, ← List.forall₂_and_left]
    exact forall₂_congr_left fun t _ out => TableDecl.resolvesTo_iff_withoutOnes
  rw [resolves_iff, resolves_iff]
  constructor
  · intro h
    obtain ⟨hw, h⟩ := h
    obtain ⟨hones, hwithout⟩ := hresolves.1 h
    exact ⟨⟨htables ▸ wellNamed_withoutOnes_iff.2 hw, hwithout⟩, hones⟩
  · intro h
    obtain ⟨⟨hw, hwithout⟩, hones⟩ := h
    rw [htables] at hw
    exact ⟨wellNamed_withoutOnes_iff.1 hw, hresolves.2 ⟨hones, hwithout⟩⟩

/-! ## An example

A node counts its bytes in a field that is said to hold one value. -/

def countedOnceDeclarations : Declarations where
  read := [⟨"node", "node_t", [
    ⟨"n", none, some "uint8", .integer, some (.fixed 1), none, []⟩,
    ⟨"xs", none, some "uint8", .table, some (.named "self::n"), none, []⟩]⟩]
  definition := []

/-- The node is refused for the count of one, and accepted without it. -/
theorem one_refused :
    TableSet.ofDeclarations countedOnceDeclarations =
        .error (.incompatibleType "node_t" "xs" "`n` must be a single integer field") ∧
      ∃ s, TableSet.ofDeclarations countedOnceDeclarations.withoutOnes = .ok s :=
  ⟨rfl, _, rfl⟩

end RecordTables
