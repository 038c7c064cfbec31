import RecordTables.Proofs.Schema.Naming

/-!
What declarations stand for.

`Declarations.ResolvesTo` relates declarations to the table set they stand for.  It states the rules
of names, references and types without an order in which they are looked at, and so without errors.
The theorem this file exists for is `resolves_iff`: resolution succeeds with a table set
exactly if the declarations stand for it.
-/

namespace RecordTables

/-! ## Types -/

/-- The type that a text declares beside the tables of a document. -/
inductive Declares (tables : List TableDecl) (text : String) : ValueType → Prop
  | table {t : TableDecl} (ht : t ∈ tables) (h : text = referenceMark ++ t.tag) :
      Declares tables text (.table t.name)
  | scalar {s : ScalarType} (h : text = s.name) : Declares tables text (.scalar s)
  | foreign (hr : ∀ tag, text ≠ referenceMark ++ tag) (hs : ∀ s : ScalarType, text ≠ s.name) :
      Declares tables text (.foreign text)

/-- A single value of a type can be represented so. -/
inductive Represents : LuaType → ValueType → Prop
  | integer {s : ScalarType} {low high : Int} (h : s.bounds? = some (low, high)) :
      Represents .integer (.scalar s)
  | number {s : ScalarType} (h : s ≠ .string) : Represents .number (.scalar s)
  | string : Represents .string (.scalar .string)
  | boolean : Represents .boolean (.scalar .bool)
  | lightUserData (type : ValueType) : Represents .lightUserData type
  | table (name : String) : Represents .table (.table name)

/-- A field of the arity can hold values of a type in a representation. -/
inductive Fits : Arity → LuaType → ValueType → Prop
  | single {luaType : LuaType} {type : ValueType} (h : Represents luaType type) :
      Fits .one luaType type
  | sequence {arity : Arity} {type : ValueType} (ha : arity ≠ .one)
      (ht : ∀ name, type ≠ .foreign name) : Fits arity .table type

theorem fits_one_iff {luaType : LuaType} {type : ValueType} :
    Fits .one luaType type ↔ Represents luaType type := by
  constructor
  · intro h
    cases h with
    | single h => exact h
    | sequence ha => exact absurd rfl ha
  · exact .single

theorem fits_sequence_iff {arity : Arity} (ha : arity ≠ .one) {luaType : LuaType}
    {type : ValueType} :
    Fits arity luaType type ↔ luaType = .table ∧ ∀ name, type ≠ .foreign name := by
  constructor
  · intro h
    cases h with
    | single => exact absurd rfl ha
    | sequence _ ht => exact ⟨rfl, ht⟩
  · intro h
    obtain ⟨rfl, ht⟩ := h
    exact .sequence ha ht

theorem ScalarType.ofName?_eq_some_iff {text : String} {s : ScalarType} :
    ScalarType.ofName? text = some s ↔ text = s.name := by
  have hnames : (ScalarType.all.map ScalarType.name).Nodup := by decide
  have hall : s ∈ ScalarType.all := by cases s <;> decide
  rw [ScalarType.ofName?, find?_key_eq_some_iff hnames]
  exact ⟨fun h => h.2.symm, fun h => ⟨hall, h.symm⟩⟩

theorem canHold_iff {luaType : LuaType} {type : ValueType} :
    luaType.canHold type = true ↔ Represents luaType type := by
  constructor
  · intro h
    cases luaType <;> cases type <;> simp only [LuaType.canHold, Bool.false_eq_true] at h
    case integer.scalar s =>
      obtain ⟨b, hb⟩ := Option.isSome_iff_exists.1 h
      exact .integer hb
    case number.scalar s => exact .number (by simpa [ScalarType.isNumeric] using h)
    case string.scalar s =>
      rw [decide_eq_true_eq] at h
      subst h
      exact .string
    case boolean.scalar s =>
      rw [decide_eq_true_eq] at h
      subst h
      exact .boolean
    case table.table name => exact .table name
    all_goals exact .lightUserData _
  · intro h
    cases h with
    | integer h => simp [LuaType.canHold, ScalarType.isIntegral, h]
    | number h => simpa [LuaType.canHold, ScalarType.isNumeric] using h
    | string => rfl
    | boolean => rfl
    | lightUserData type => rfl
    | table name => rfl

theorem isForeign_iff {type : ValueType} :
    type.isForeign = true ↔ ∃ name, type = .foreign name := by
  cases type <;> simp [ValueType.isForeign]

theorem checkCompatible_eq_ok_iff {site : Site} {luaType : LuaType} {type : ValueType}
    {arity : Arity} {u : Unit} :
    checkCompatible site luaType type arity = .ok u ↔ Fits arity luaType type := by
  unfold checkCompatible Site.incompatible
  by_cases ha : arity = .one
  · subst ha
    rw [if_neg (by simp [Arity.isSequence]), fits_one_iff, ← canHold_iff]
    by_cases hh : luaType.canHold type = true
    · rw [if_pos hh]
      exact ⟨fun _ => hh, fun _ => rfl⟩
    · rw [if_neg hh]
      constructor
      · intro h
        cases h
      · intro h
        exact absurd h hh
  · rw [if_pos (by simpa [Arity.isSequence] using ha), refuse_eq_ok_iff, refuse_eq_ok_iff,
      isForeign_iff, not_not, not_exists, fits_sequence_iff ha]
    exact ⟨fun ⟨hl, ht, _⟩ => ⟨hl, ht⟩, fun ⟨hl, ht⟩ => ⟨hl, ht, rfl⟩⟩

theorem referent?_eq_none_iff {text : String} :
    referent? text = none ↔ ∀ tag, text ≠ referenceMark ++ tag := by
  constructor
  · intro h tag ht
    rw [referent?_eq_some_iff.2 ht] at h
    cases h
  · intro h
    cases hr : referent? text with
    | none => rfl
    | some tag => exact absurd (referent?_eq_some_iff.1 hr) (h tag)

theorem referent?_name (s : ScalarType) : referent? s.name = none := by
  cases s <;> decide

theorem resolveType_eq_ok_iff {tables : List TableDecl} (htags : (tables.map (·.tag)).Nodup)
    {site : Site} {text : String} {type : ValueType} :
    resolveType tables site text = .ok type ↔ Declares tables text type := by
  constructor
  · intro h
    unfold resolveType at h
    split at h
    · next tag hr =>
      split at h
      · next t hf =>
        cases h
        obtain ⟨ht, rfl⟩ := (find?_key_eq_some_iff htags).1 hf
        exact .table ht (referent?_eq_some_iff.1 hr)
      · cases h
    · next hr =>
      split at h
      · next s hs =>
        cases h
        exact .scalar (ScalarType.ofName?_eq_some_iff.1 hs)
      · next hs =>
        cases h
        refine .foreign (referent?_eq_none_iff.1 hr) (fun s ht => ?_)
        rw [ScalarType.ofName?_eq_some_iff.2 ht] at hs
        cases hs
  · intro h
    unfold resolveType
    cases h with
    | @table t ht h =>
      rw [referent?_eq_some_iff.2 h]
      simp only [(find?_key_eq_some_iff htags).2 ⟨ht, rfl⟩]
    | @scalar s h =>
      rw [h, referent?_name]
      simp only [ScalarType.ofName?_eq_some_iff.2 rfl]
    | foreign hr hs =>
      rw [referent?_eq_none_iff.2 hr]
      cases hn : ScalarType.ofName? text with
      | none => rfl
      | some s => exact absurd (ScalarType.ofName?_eq_some_iff.1 hn) (hs s)

/-! ## References between fields -/

/-- A text refers to the single integer field at an index. -/
def RefersTo (fields : List FieldDecl) (text : String) (index : Nat) : Prop :=
  ∃ g, fields[index]? = some g ∧ text = referenceMark ++ g.effectiveTag ∧ g.luaType = .integer ∧
    g.count = none

theorem siblingIndex?_eq_some_iff {fields : List FieldDecl}
    (htags : (fields.map (·.effectiveTag)).Nodup) {tag : String} {index : Nat} :
    siblingIndex? fields tag = some index ↔
      ∃ g, fields[index]? = some g ∧ g.effectiveTag = tag :=
  findIdx?_key_eq_some_iff htags

/-- The check that a field does not refer to itself never matters: a field that refers to another
one is no single integer, and the one referred to is. -/
theorem resolveSibling_eq_ok_iff {fields : List FieldDecl}
    (hnames : (fields.map (·.name)).Nodup) (htags : (fields.map (·.effectiveTag)).Nodup)
    {table : String} {f : FieldDecl} (hf : f ∈ fields)
    (hno : f.luaType ≠ .integer ∨ f.count ≠ none) {text : String} {index : Nat} :
    resolveSibling fields ⟨table, f.name⟩ text = .ok index ↔ RefersTo fields text index := by
  constructor
  · intro h
    unfold resolveSibling Site.unresolved Site.incompatible at h
    split at h
    · cases h
    · next tag hr =>
      split at h
      · cases h
      · next k hk =>
        obtain ⟨g, hg, htag⟩ := (siblingIndex?_eq_some_iff htags).1 hk
        simp only [hg] at h
        rw [refuse_eq_ok_iff, refuse_eq_ok_iff] at h
        obtain ⟨hsingle, _, heq⟩ := h
        cases heq
        rw [not_or, not_not, Option.not_isSome_iff_eq_none] at hsingle
        refine ⟨g, hg, ?_, hsingle.1, hsingle.2⟩
        rw [htag]
        exact referent?_eq_some_iff.1 hr
  · intro h
    obtain ⟨g, hg, rfl, hint, hcount⟩ := h
    have hne : g.name ≠ f.name := by
      intro heq
      have : g = f := List.inj_on_of_nodup_map hnames (List.mem_of_getElem? hg) hf heq
      subst this
      rcases hno with h | h
      · exact h hint
      · exact h hcount
    unfold resolveSibling Site.incompatible
    rw [referent?_eq_some_iff.2 rfl]
    simp only [(siblingIndex?_eq_some_iff htags).2 ⟨g, hg, rfl⟩, hg]
    rw [refuse_eq_ok_iff, refuse_eq_ok_iff]
    refine ⟨?_, hne, rfl⟩
    rw [hint, hcount]
    simp

/-- The arity that a count stands for. -/
inductive CountResolves (fields : List FieldDecl) : Option CountDecl → Arity → Prop
  | absent : CountResolves fields none .one
  | one : CountResolves fields (some (.fixed 1)) .one
  | fixed {n : Nat} (h : 2 ≤ n) : CountResolves fields (some (.fixed n)) (.fixed n)
  | any : CountResolves fields (some (.named anyCount)) .unbounded
  | sibling {text : String} {index : Nat} (h : RefersTo fields text index) :
      CountResolves fields (some (.named text)) (.counted index)

theorem referent?_anyCount : referent? anyCount = none := by decide

theorem resolveArity_eq_ok_iff {fields : List FieldDecl}
    (hnames : (fields.map (·.name)).Nodup) (htags : (fields.map (·.effectiveTag)).Nodup)
    {table : String} {f : FieldDecl} (hf : f ∈ fields) {arity : Arity} :
    resolveArity fields ⟨table, f.name⟩ f.count = .ok arity ↔
      CountResolves fields f.count arity := by
  have hsibling : ∀ {text index}, f.count = some (.named text) →
      (resolveSibling fields ⟨table, f.name⟩ text = .ok index ↔ RefersTo fields text index) :=
    fun h => resolveSibling_eq_ok_iff hnames htags hf (Or.inr (by rw [h]; simp))
  cases hc : f.count with
  | none =>
    constructor
    · intro h
      cases h
      exact .absent
    · intro h
      cases h
      rfl
  | some count =>
    cases count with
    | fixed n =>
      match n with
      | 0 =>
        constructor
        · intro h
          cases h
        · intro h
          cases h
          omega
      | 1 =>
        constructor
        · intro h
          cases h
          exact .one
        · intro h
          cases h with
          | one => rfl
          | fixed h => omega
      | n + 2 =>
        constructor
        · intro h
          cases h
          exact .fixed (by omega)
        · intro h
          cases h
          rfl
    | named text =>
      rw [resolveArity]
      by_cases htext : text = anyCount
      · subst htext
        rw [if_pos rfl]
        constructor
        · intro h
          cases h
          exact .any
        · intro h
          cases h with
          | any => rfl
          | sibling h =>
            obtain ⟨g, _, href, _⟩ := h
            have := referent?_eq_some_iff.2 href
            rw [referent?_anyCount] at this
            cases this
      · rw [if_neg htext, map_eq_ok_iff]
        constructor
        · intro h
          obtain ⟨index, h, rfl⟩ := h
          exact .sibling ((hsibling hc).1 h)
        · intro h
          cases h with
          | any => exact absurd rfl htext
          | sibling h => exact ⟨_, (hsibling hc).2 h, rfl⟩

/-! ## Cases and conditions -/

/-- The case that a declared case stands for. -/
structure CaseDecl.ResolvesTo (tables : List TableDecl) (c : CaseDecl) (choice : Case) : Prop where
  selector : choice.selector = c.selector
  luaType : choice.luaType = c.luaType
  plain : c.luaType ≠ .conditional
  type : Declares tables c.type choice.type
  represents : Represents c.luaType choice.type

theorem resolveCases_eq_ok_iff {tables : List TableDecl} (htags : (tables.map (·.tag)).Nodup)
    {site : Site} {earlier l : List CaseDecl} {cases : List Case} :
    resolveCases tables site earlier l = .ok cases ↔
      DistinctFrom (·.selector) earlier l ∧
        List.Forall₂ (CaseDecl.ResolvesTo tables) l cases := by
  induction l generalizing earlier cases with
  | nil =>
    rw [resolveCases, List.forall₂_nil_left_iff]
    constructor
    · intro h
      cases h
      exact ⟨distinctFrom_nil _ _, rfl⟩
    · intro h
      obtain ⟨_, rfl⟩ := h
      rfl
  | cons c l ih =>
    simp only [resolveCases, Site.badCondition, error_bind, refuse_eq_ok_iff, bind_eq_ok_iff,
      not_any_key_iff, distinctFrom_cons, List.forall₂_cons_left_iff, ih,
      resolveType_eq_ok_iff htags, checkCompatible_eq_ok_iff]
    constructor
    · intro h
      obtain ⟨hnew, hplain, type, htype, _, hfits, rest, ⟨hd, hrest⟩, hcases⟩ := h
      cases hcases
      have hr := fits_one_iff.1 hfits
      exact ⟨⟨hnew, hd⟩, _, rest, ⟨rfl, rfl, hplain, htype, hr⟩, hrest, rfl⟩
    · intro h
      obtain ⟨⟨hnew, hd⟩, choice, rest, hc, hrest, rfl⟩ := h
      refine ⟨hnew, hc.plain, choice.type, hc.type, (), .single hc.represents, rest,
        ⟨hd, hrest⟩, ?_⟩
      rw [← hc.selector, ← hc.luaType]
      rfl

/-! ## Other tables

Of the tables of a document, a type asks for their names and tags only. -/

section

variable {tables tables' : List TableDecl}
  (h : ∀ t ∈ tables, ∃ u ∈ tables', u.tag = t.tag ∧ u.name = t.name)

include h

theorem Declares.mono {text : String} {type : ValueType} (ht : Declares tables text type) :
    Declares tables' text type := by
  cases ht with
  | @table t hmem htext =>
    obtain ⟨u, hu, htag, hname⟩ := h t hmem
    rw [← hname]
    exact .table hu (htag ▸ htext)
  | scalar hs => exact .scalar hs
  | foreign hr hs => exact .foreign hr hs

theorem CaseDecl.ResolvesTo.mono {c : CaseDecl} {choice : Case}
    (hc : c.ResolvesTo tables choice) : c.ResolvesTo tables' choice :=
  ⟨hc.selector, hc.luaType, hc.plain, hc.type.mono h, hc.represents⟩

end

/-! ## Fields and tables -/

/-- The field that a declared field stands for among the fields of a table. -/
inductive FieldDecl.ResolvesTo (tables : List TableDecl) (fields : List FieldDecl)
    (f : FieldDecl) : Field → Prop
  | conditional {reference : String} {index : Nat} {cases : List Case}
      (hl : f.luaType = .conditional) (hn : f.count = none) (hc : f.condition = some reference)
      (hr : RefersTo fields reference index) (hne : f.cases ≠ [])
      (hd : (f.cases.map (·.selector)).Nodup)
      (hcases : List.Forall₂ (CaseDecl.ResolvesTo tables) f.cases cases) :
      f.ResolvesTo tables fields
        ⟨f.name, f.effectiveTag, f.luaType, none, .one, some ⟨index, cases⟩⟩
  | plain {text : String} {type : ValueType} {arity : Arity} (hl : f.luaType ≠ .conditional)
      (hc : f.condition = none) (hcases : f.cases = []) (ht : f.type = some text)
      (htype : Declares tables text type) (hn : CountResolves fields f.count arity)
      (hfits : Fits arity f.luaType type) :
      f.ResolvesTo tables fields ⟨f.name, f.effectiveTag, f.luaType, some type, arity, none⟩

/-- The table that a declared table stands for. -/
structure TableDecl.ResolvesTo (tables : List TableDecl) (t : Origin × TableDecl) (out : Table) :
    Prop where
  wellNamed : t.2.WellNamed
  tag : out.tag = t.2.tag
  name : out.name = t.2.name
  origin : out.origin = t.1
  fields : List.Forall₂ (FieldDecl.ResolvesTo tables t.2.fields) t.2.fields out.fields

/-- The table set that declarations stand for. -/
structure Declarations.ResolvesTo (d : Declarations) (s : TableSet) : Prop where
  wellNamed : WellNamed (d.tables.map (·.2))
  tables : List.Forall₂ (TableDecl.ResolvesTo (d.tables.map (·.2))) d.tables s.tables

theorem resolveCondition_eq_ok_iff {tables : List TableDecl} {fields : List FieldDecl}
    (htables : (tables.map (·.tag)).Nodup) (hnames : (fields.map (·.name)).Nodup)
    (htags : (fields.map (·.effectiveTag)).Nodup) {table : String} {f : FieldDecl}
    (hf : f ∈ fields) (hl : f.luaType = .conditional) {condition : Condition} :
    resolveCondition tables fields ⟨table, f.name⟩ f = .ok condition ↔
      ∃ reference, f.condition = some reference ∧ RefersTo fields reference condition.field ∧
        f.cases ≠ [] ∧ (f.cases.map (·.selector)).Nodup ∧
        List.Forall₂ (CaseDecl.ResolvesTo tables) f.cases condition.cases := by
  have hno : f.luaType ≠ .integer ∨ f.count ≠ none := Or.inl (by rw [hl]; decide)
  unfold resolveCondition
  cases hc : f.condition with
  | none => simp [Site.badCondition]
  | some reference =>
    simp only [Site.badCondition, error_bind, refuse_eq_ok_iff, bind_eq_ok_iff,
      resolveSibling_eq_ok_iff hnames htags hf hno, resolveCases_eq_ok_iff htables,
      distinctFrom_nil_left, List.isEmpty_iff]
    constructor
    · intro h
      obtain ⟨index, hr, hne, cases, ⟨hd, hcases⟩, h⟩ := h
      cases h
      exact ⟨reference, rfl, hr, hne, hd, hcases⟩
    · intro h
      obtain ⟨_, href, hr, hne, hd, hcases⟩ := h
      cases href
      exact ⟨condition.field, hr, hne, condition.cases, ⟨hd, hcases⟩, rfl⟩

theorem resolveField_eq_ok_iff {tables : List TableDecl} {fields : List FieldDecl}
    (htables : (tables.map (·.tag)).Nodup) (hnames : (fields.map (·.name)).Nodup)
    (htags : (fields.map (·.effectiveTag)).Nodup) {table : String} {f : FieldDecl}
    (hf : f ∈ fields) {field : Field} :
    resolveField tables table fields f = .ok field ↔ f.ResolvesTo tables fields field := by
  simp only [resolveField, bind_eq_ok_iff, resolveArity_eq_ok_iff hnames htags hf]
  by_cases hl : f.luaType = .conditional
  · simp only [if_pos hl, Site.badCondition, error_bind, refuse_eq_ok_iff, bind_eq_ok_iff,
      resolveCondition_eq_ok_iff htables hnames htags hf hl]
    constructor
    · intro h
      obtain ⟨arity, harity, hcount, condition, ⟨reference, hc, hr, hne, hd, hcases⟩, h⟩ := h
      rw [Option.not_isSome_iff_eq_none] at hcount
      rw [hcount] at harity
      cases harity
      cases h
      exact .conditional hl hcount hc hr hne hd hcases
    · intro h
      cases h with
      | @conditional reference index cases _ hcount hc hr hne hd hcases =>
        refine ⟨.one, ?_, by simp [hcount], ⟨index, cases⟩,
          ⟨reference, hc, hr, hne, hd, hcases⟩, rfl⟩
        rw [hcount]
        exact .absent
      | plain hplain => exact absurd hl hplain
  · simp only [if_neg hl, Site.badCondition, error_bind, refuse_eq_ok_iff, not_or,
      Option.not_isSome_iff_eq_none, Bool.not_eq_true', Bool.not_eq_false, List.isEmpty_iff]
    constructor
    · intro h
      obtain ⟨arity, harity, ⟨hc, hcases⟩, h⟩ := h
      split at h
      · cases h
      · next text ht =>
        obtain ⟨type, htype, h⟩ := bind_eq_ok_iff.1 h
        obtain ⟨_, hfits, h⟩ := bind_eq_ok_iff.1 h
        cases h
        exact .plain hl hc hcases ht ((resolveType_eq_ok_iff htables).1 htype) harity
          (checkCompatible_eq_ok_iff.1 hfits)
    · intro h
      cases h with
      | conditional hcond => exact absurd hcond hl
      | @plain text type arity _ hc hcases ht htype harity hfits =>
        refine ⟨arity, harity, ⟨hc, hcases⟩, ?_⟩
        simp only [ht]
        refine bind_eq_ok_iff.2 ⟨type, (resolveType_eq_ok_iff htables).2 htype, ?_⟩
        exact bind_eq_ok_iff.2 ⟨(), checkCompatible_eq_ok_iff.2 hfits, rfl⟩

theorem forall₂_congr_left {α β : Type} {R S : α → β → Prop} {l : List α} {out : List β}
    (h : ∀ a ∈ l, ∀ b, R a b ↔ S a b) : List.Forall₂ R l out ↔ List.Forall₂ S l out := by
  induction l generalizing out with
  | nil => simp only [List.forall₂_nil_left_iff]
  | cons a l ih =>
    simp only [List.forall₂_cons_left_iff, h a List.mem_cons_self,
      ih fun b hb => h b (List.mem_cons_of_mem a hb)]

theorem resolveTable_eq_ok_iff {tables : List TableDecl} (htables : (tables.map (·.tag)).Nodup)
    {t : Origin × TableDecl} {out : Table} :
    resolveTable tables t.1 t.2 = .ok out ↔ TableDecl.ResolvesTo tables t out := by
  simp only [resolveTable, bind_eq_ok_iff, mapM_eq_ok_iff]
  constructor
  · intro h
    obtain ⟨_, hfields, _, hsetters, fields, hmap, h⟩ := h
    have hw := checkNames_eq_ok_iff.1 ⟨hfields, hsetters⟩
    cases h
    refine ⟨hw, rfl, rfl, rfl, ?_⟩
    exact (forall₂_congr_left fun f hf _ =>
      resolveField_eq_ok_iff htables hw.names hw.tags hf).1 hmap
  · intro h
    obtain ⟨hw, htag, hname, horigin, hfields⟩ := h
    obtain ⟨hcheck, hsetters⟩ := checkNames_eq_ok_iff.2 hw
    refine ⟨(), hcheck, (), hsetters, out.fields, ?_, ?_⟩
    · exact (forall₂_congr_left fun f hf _ =>
        resolveField_eq_ok_iff htables hw.names hw.tags hf).2 hfields
    · rw [← htag, ← hname, ← horigin]
      rfl

/-- Resolution succeeds with a table set exactly if the declarations stand for it. -/
theorem resolves_iff {d : Declarations} {s : TableSet} :
    TableSet.ofDeclarations d = .ok s ↔ d.ResolvesTo s := by
  simp only [TableSet.ofDeclarations, bind_eq_ok_iff, mapM_eq_ok_iff, checkTableNames_nil_eq_ok_iff]
  constructor
  · intro h
    obtain ⟨_, hw, tables, hmap, h⟩ := h
    cases h
    exact ⟨hw, (forall₂_congr_left fun _ _ _ => resolveTable_eq_ok_iff hw.tags).1 hmap⟩
  · intro h
    obtain ⟨hw, htables⟩ := h
    exact ⟨(), hw, s.tables,
      (forall₂_congr_left fun _ _ _ => resolveTable_eq_ok_iff hw.tags).2 htables, rfl⟩

end RecordTables
