import RecordTables.Proofs.Schema.Acceptance

/-!
Why declarations are refused.

The fault relations say, for each error, which declaration breaks which rule: `TableDecl.NameFault` for
the name or the tag of a table, and `TableDecl.Fault` for its fields, which is made of the faults of
single fields, references, types and cases.  They do not speak of the order in which rules are looked
at, except where a rule is itself about what stands earlier.  `refusal_truthful` says that every error
is such a fault, and of which table.
-/

namespace RecordTables

/-! ## Faults -/

/-- The name or the tag of a table that stands after other tables is at fault. -/
inductive TableDecl.NameFault (earlier : List TableDecl) (t : TableDecl) : SchemaError → Prop
  | noName (h : ¬IsIdentifier t.name) : t.NameFault earlier (.invalidName t.name)
  | sameName {u : TableDecl} (hu : u ∈ earlier) (h : u.name = t.name) :
      t.NameFault earlier (.duplicateTable t.name)
  | sameTag {u : TableDecl} (hu : u ∈ earlier) (h : u.tag = t.tag) :
      t.NameFault earlier (.duplicateTable t.tag)

/-- A count or a condition is no reference, refers to no field of its table, or refers to one that does
not hold a single integer. -/
inductive ReferenceFault (fields : List FieldDecl) (site : Site) (text : String) :
    SchemaError → Prop
  | unresolved (h : ∀ g ∈ fields, text ≠ "self::" ++ g.effectiveTag) :
      ReferenceFault fields site text (.unresolvedField site.table site.field text)
  | noInteger {g : FieldDecl} (hg : g ∈ fields) (h : text = "self::" ++ g.effectiveTag)
      (hno : g.luaType ≠ .integer ∨ g.count ≠ none) :
      ReferenceFault fields site text (.incompatibleType site.table site.field
        s!"`{g.name}` must be a single integer field")

/-- A declared type refers to no table, or cannot be held in the way that the field holds its values:
as a sequence where the count asks for one, and as a single value elsewhere. -/
inductive TypeFault (tables : List TableDecl) (site : Site) (count : Option CountDecl)
    (luaType : LuaType) (text : String) : SchemaError → Prop
  | unresolved {tag : String} (h : text = "self::" ++ tag) (hno : ∀ t ∈ tables, t.tag ≠ tag) :
      TypeFault tables site count luaType text (.unresolvedType site.table site.field text)
  | noTable (hcount : CountsSequence count) (hl : luaType ≠ .table) :
      TypeFault tables site count luaType text
        (.incompatibleType site.table site.field "sequences must use luatype `table`")
  | foreign {name : String} (hcount : CountsSequence count) (hl : luaType = .table)
      (ht : Declares tables text (.foreign name)) :
      TypeFault tables site count luaType text
        (.incompatibleType site.table site.field (mismatchReason luaType (.foreign name)))
  | single {type : ValueType} (hcount : ¬CountsSequence count) (ht : Declares tables text type)
      (hr : ¬Represents luaType type) :
      TypeFault tables site count luaType text
        (.incompatibleType site.table site.field (mismatchReason luaType type))

/-- A case that stands after others has a selector of theirs, is conditional, or has a type that is at
fault. -/
inductive CaseDecl.Fault (tables : List TableDecl) (site : Site) (earlier : List CaseDecl)
    (c : CaseDecl) : SchemaError → Prop
  | repeated {b : CaseDecl} (hb : b ∈ earlier) (h : b.selector = c.selector) :
      c.Fault tables site earlier (.invalidCondition site.table site.field
        s!"case {c.selector} appears twice")
  | conditional (h : c.luaType = .conditional) :
      c.Fault tables site earlier (.invalidCondition site.table site.field
        "cases cannot be conditional")
  | type {e : SchemaError} (h : TypeFault tables site none c.luaType c.type e) :
      c.Fault tables site earlier e

/-- A field of a table with the given fields is at fault. -/
inductive FieldDecl.Fault (tables : List TableDecl) (table : String) (fields : List FieldDecl)
    (f : FieldDecl) : SchemaError → Prop
  | noValues (h : f.count = some (.fixed 0)) :
      f.Fault tables table fields (.incompatibleType table f.name "count must be at least 1")
  | count {text : String} {e : SchemaError} (hc : f.count = some (.named text)) (hany : text ≠ "*")
      (h : ReferenceFault fields ⟨table, f.name⟩ text e) : f.Fault tables table fields e
  | counted (hl : f.luaType = .conditional) (hc : f.count ≠ none) :
      f.Fault tables table fields
        (.invalidCondition table f.name "conditional fields hold a single value")
  | unconditioned (hl : f.luaType = .conditional) (hc : f.condition = none) :
      f.Fault tables table fields (.invalidCondition table f.name "missing `condition`")
  | condition {text : String} {e : SchemaError} (hl : f.luaType = .conditional)
      (hc : f.condition = some text) (h : ReferenceFault fields ⟨table, f.name⟩ text e) :
      f.Fault tables table fields e
  | noCases (hl : f.luaType = .conditional) (hc : f.cases = []) :
      f.Fault tables table fields (.invalidCondition table f.name "no cases")
  | case {earlier later : List CaseDecl} {c : CaseDecl} {e : SchemaError}
      (hl : f.luaType = .conditional) (hc : f.cases = earlier ++ c :: later)
      (h : c.Fault tables ⟨table, f.name⟩ earlier e) : f.Fault tables table fields e
  | conditioned (hl : f.luaType ≠ .conditional) (hc : f.condition ≠ none ∨ f.cases ≠ []) :
      f.Fault tables table fields
        (.invalidCondition table f.name "only conditional fields take a condition")
  | untyped (hl : f.luaType ≠ .conditional) (ht : f.type = none) :
      f.Fault tables table fields (.missingType table f.name)
  | type {text : String} {e : SchemaError} (hl : f.luaType ≠ .conditional)
      (ht : f.type = some text) (h : TypeFault tables ⟨table, f.name⟩ f.count f.luaType text e) :
      f.Fault tables table fields e

/-- A field of a table is at fault, by its name, by its tag, or otherwise. -/
inductive TableDecl.Fault (tables : List TableDecl) (t : TableDecl) : SchemaError → Prop
  | noName {f : FieldDecl} (hf : f ∈ t.fields) (h : ¬IsIdentifier f.name) :
      t.Fault tables (.invalidName s!"{t.name}.{f.name}")
  | constructorName {f : FieldDecl} (hf : f ∈ t.fields) (h : f.name = "new") :
      t.Fault tables (.reservedName t.name "new")
  | repeated {earlier later : List FieldDecl} {f g : FieldDecl}
      (hf : t.fields = earlier ++ f :: later) (hg : g ∈ earlier)
      (h : g.name = f.name ∨ g.effectiveTag = f.effectiveTag) :
      t.Fault tables (.duplicateField t.name f.name)
  | setterName {f g : FieldDecl} (hf : f ∈ t.fields) (hg : g ∈ t.fields)
      (h : g.name = "set_" ++ f.name) : t.Fault tables (.reservedName t.name g.name)
  | field {f : FieldDecl} {e : SchemaError} (hf : f ∈ t.fields)
      (h : f.Fault tables t.name t.fields e) : t.Fault tables e

/-! ## Types and references -/

section

variable {tables : List TableDecl} {site : Site} {count : Option CountDecl} {luaType : LuaType}
  {text : String} {e : SchemaError}

theorem typeFault_of_resolveType (h : resolveType tables site text = .error e) :
    TypeFault tables site count luaType text e := by
  unfold resolveType at h
  split at h
  · next tag hr =>
    split at h
    · cases h
    · next hnone =>
      cases h
      refine .unresolved (referent?_eq_some_iff.1 hr) fun t ht => ?_
      simpa using List.find?_eq_none.1 hnone t ht
  · split at h <;> cases h

theorem typeFault_of_checkCompatible {type : ValueType} {arity : Arity}
    (ht : Declares tables text type) (hcount : CountsSequence count ↔ arity ≠ .one)
    (h : checkCompatible site luaType type arity = .error e) :
    TypeFault tables site count luaType text e := by
  have hno : ¬Fits arity luaType type := by
    intro hfits
    rw [checkCompatible_eq_ok_iff (u := ()).2 hfits] at h
    cases h
  unfold checkCompatible Site.incompatible at h
  by_cases ha : arity = .one
  · rw [ha, fits_one_iff] at hno
    rw [if_neg (by simp [ha, Arity.isSequence]), ← ite_not, refuse_eq_error_iff] at h
    rcases h with ⟨_, rfl⟩ | ⟨_, h⟩
    · exact .single (fun h => hcount.1 h ha) ht hno
    · cases h
  · rw [if_pos (by simpa [Arity.isSequence] using ha), refuse_eq_error_iff,
      refuse_eq_error_iff] at h
    rcases h with ⟨hl, rfl⟩ | ⟨hl, ⟨hforeign, rfl⟩ | ⟨_, h⟩⟩
    · exact .noTable (hcount.2 ha) hl
    · obtain ⟨name, rfl⟩ := isForeign_iff.1 hforeign
      exact .foreign (hcount.2 ha) (not_not.1 hl) ht
    · cases h

variable {fields : List FieldDecl} {table : String} {f : FieldDecl}

/-- A field that refers to itself is no single integer, and is refused for that. -/
theorem referenceFault_of_resolveSibling (hnames : (fields.map (·.name)).Nodup)
    (htags : (fields.map (·.effectiveTag)).Nodup) (hf : f ∈ fields)
    (hno : f.luaType ≠ .integer ∨ f.count ≠ none)
    (h : resolveSibling fields ⟨table, f.name⟩ text = .error e) :
    ReferenceFault fields ⟨table, f.name⟩ text e := by
  unfold resolveSibling Site.unresolved Site.incompatible at h
  split at h
  · next hr =>
    cases h
    exact .unresolved fun g _ => referent?_eq_none_iff.1 hr g.effectiveTag
  · next tag hr =>
    have htext := referent?_eq_some_iff.1 hr
    split at h
    · next hnone =>
      cases h
      refine .unresolved fun g hg heq => ?_
      have htag : g.effectiveTag = tag := by
        rw [referent?_eq_some_iff.2 heq] at hr
        exact Option.some.inj hr
      simpa [htag] using List.findIdx?_eq_none_iff.1 hnone g hg
    · next index hindex =>
      obtain ⟨g, hg, htag⟩ := (siblingIndex?_eq_some_iff htags).1 hindex
      have hmem := List.mem_of_getElem? hg
      rw [← htag] at htext
      simp only [hg] at h
      rw [refuse_eq_error_iff, refuse_eq_error_iff] at h
      rcases h with ⟨hsingle, rfl⟩ | ⟨hsingle, ⟨hself, _⟩ | ⟨_, h⟩⟩
      · exact .noInteger hmem htext (hsingle.imp_right Option.isSome_iff_ne_none.1)
      · have hsame : g = f := List.inj_on_of_nodup_map hnames hmem hf hself
        rw [hsame, Option.isSome_iff_ne_none] at hsingle
        exact absurd hno hsingle
      · cases h

end

/-! ## Fields -/

section

variable {tables : List TableDecl} {fields : List FieldDecl} {table : String} {f : FieldDecl}
  {e : SchemaError}

theorem fault_of_resolveArity (hnames : (fields.map (·.name)).Nodup)
    (htags : (fields.map (·.effectiveTag)).Nodup) (hf : f ∈ fields)
    (h : resolveArity fields ⟨table, f.name⟩ f.count = .error e) :
    f.Fault tables table fields e := by
  cases hc : f.count with
  | none =>
    rw [hc] at h
    cases h
  | some count =>
    rw [hc] at h
    cases count with
    | fixed n =>
      cases n with
      | zero =>
        cases h
        exact .noValues hc
      | succ n => cases n <;> cases h
    | named text =>
      rw [resolveArity] at h
      split at h
      · cases h
      · next hany =>
        have hno : f.luaType ≠ .integer ∨ f.count ≠ none := Or.inr (hc ▸ Option.some_ne_none _)
        exact .count hc hany (referenceFault_of_resolveSibling hnames htags hf hno
          (map_eq_error_iff.1 h))

theorem fault_of_resolveCases (htables : (tables.map (·.tag)).Nodup) {site : Site}
    {earlier l : List CaseDecl} (h : resolveCases tables site earlier l = .error e) :
    ∃ before c after, l = before ++ c :: after ∧
      c.Fault tables site (earlier.reverse ++ before) e := by
  induction l generalizing earlier with
  | nil => cases h
  | cons c l ih =>
    have hfirst : c.Fault tables site (earlier.reverse ++ []) e → ∃ before c' after,
        c :: l = before ++ c' :: after ∧ c'.Fault tables site (earlier.reverse ++ before) e :=
      fun hc => ⟨[], c, l, rfl, hc⟩
    simp only [resolveCases, Site.badCondition, error_bind, refuse_eq_error_iff,
      bind_eq_error_iff, resolveType_eq_ok_iff htables] at h
    rcases h with ⟨hany, rfl⟩ | ⟨_, ⟨hl, rfl⟩ | ⟨_, htype | ⟨type, htype, hfits | ⟨_, _, h⟩⟩⟩⟩
    · obtain ⟨b, hb, hsame⟩ := List.any_eq_true.1 hany
      exact hfirst (.repeated (by simpa using hb) (by simpa using hsame))
    · exact hfirst (.conditional hl)
    · exact hfirst (.type (typeFault_of_resolveType htype))
    · exact hfirst (.type (typeFault_of_checkCompatible htype (by simp [CountsSequence]) hfits))
    · rcases h with h | ⟨_, _, h⟩
      · obtain ⟨before, c', after, rfl, hfault⟩ := ih h
        refine ⟨c :: before, c', after, rfl, ?_⟩
        rw [List.reverse_cons, List.append_assoc] at hfault
        exact hfault
      · cases h

theorem fault_of_resolveCondition (htables : (tables.map (·.tag)).Nodup)
    (hnames : (fields.map (·.name)).Nodup) (htags : (fields.map (·.effectiveTag)).Nodup)
    (hf : f ∈ fields) (hl : f.luaType = .conditional)
    (h : resolveCondition tables fields ⟨table, f.name⟩ f = .error e) :
    f.Fault tables table fields e := by
  have hno : f.luaType ≠ .integer ∨ f.count ≠ none := Or.inl (by rw [hl]; decide)
  unfold resolveCondition at h
  cases hc : f.condition with
  | none =>
    rw [hc] at h
    cases h
    exact .unconditioned hl hc
  | some text =>
    simp only [hc, Site.badCondition, error_bind, refuse_eq_error_iff, bind_eq_error_iff,
      List.isEmpty_iff] at h
    rcases h with h | ⟨_, _, ⟨hcases, rfl⟩ | ⟨_, h | ⟨_, _, h⟩⟩⟩
    · exact .condition hl hc (referenceFault_of_resolveSibling hnames htags hf hno h)
    · exact .noCases hl hcases
    · obtain ⟨before, c, after, hsplit, hfault⟩ := fault_of_resolveCases htables h
      exact .case hl hsplit hfault
    · cases h

theorem fault_of_resolveField (htables : (tables.map (·.tag)).Nodup)
    (hnames : (fields.map (·.name)).Nodup) (htags : (fields.map (·.effectiveTag)).Nodup)
    (hf : f ∈ fields) (h : resolveField tables table fields f = .error e) :
    f.Fault tables table fields e := by
  simp only [resolveField, bind_eq_error_iff] at h
  rcases h with h | ⟨arity, harity, h⟩
  · exact fault_of_resolveArity hnames htags hf h
  by_cases hl : f.luaType = .conditional
  · simp only [if_pos hl, Site.badCondition, error_bind, refuse_eq_error_iff,
      bind_eq_error_iff] at h
    rcases h with ⟨hc, rfl⟩ | ⟨_, h | ⟨_, _, h⟩⟩
    · exact .counted hl (Option.isSome_iff_ne_none.1 hc)
    · exact fault_of_resolveCondition htables hnames htags hf hl h
    · cases h
  · simp only [if_neg hl, Site.badCondition, error_bind, refuse_eq_error_iff] at h
    rcases h with ⟨hc, rfl⟩ | ⟨_, h⟩
    · refine .conditioned hl ?_
      simpa [Option.isSome_iff_ne_none] using hc
    · split at h
      · next ht =>
        cases h
        exact .untyped hl ht
      · next text ht =>
        have hcount := ((resolveArity_eq_ok_iff hnames htags hf).1 harity).countsSequence_iff
        obtain h | ⟨type, htype, h⟩ := bind_eq_error_iff.1 h
        · exact .type hl ht (typeFault_of_resolveType h)
        · obtain h | ⟨_, _, h⟩ := bind_eq_error_iff.1 h
          · have hdeclares := (resolveType_eq_ok_iff htables).1 htype
            exact .type hl ht (typeFault_of_checkCompatible hdeclares hcount h)
          · cases h

end

/-! ## Names -/

section

variable {e : SchemaError}

/-- The check of names stops at the first table whose name or tag is at fault. -/
theorem nameFault_of_checkTableNames {earlier l : List TableDecl}
    (h : checkTableNames earlier l = .error e) :
    ∃ before t after, l = before ++ t :: after ∧ checkTableNames earlier before = .ok () ∧
      t.NameFault (earlier.reverse ++ before) e := by
  induction l generalizing earlier with
  | nil => cases h
  | cons t l ih =>
    have hfirst : t.NameFault (earlier.reverse ++ []) e → ∃ before u after,
        t :: l = before ++ u :: after ∧ checkTableNames earlier before = .ok () ∧
          u.NameFault (earlier.reverse ++ before) e := fun ht => ⟨[], t, l, rfl, rfl, ht⟩
    rw [checkTableNames, refuse_eq_error_iff, refuse_eq_error_iff, refuse_eq_error_iff] at h
    rcases h with ⟨hname, rfl⟩ | ⟨hname, ⟨hany, rfl⟩ | ⟨hnew, ⟨hany, rfl⟩ | ⟨htag, h⟩⟩⟩
    · exact hfirst (.noName ((not_isName_iff t.name).1 hname))
    · obtain ⟨u, hu, hsame⟩ := List.any_eq_true.1 hany
      exact hfirst (.sameName (by simpa using hu) (by simpa using hsame))
    · obtain ⟨u, hu, hsame⟩ := List.any_eq_true.1 hany
      exact hfirst (.sameTag (by simpa using hu) (by simpa using hsame))
    · obtain ⟨before, u, after, rfl, hbefore, hfault⟩ := ih h
      refine ⟨t :: before, u, after, rfl, ?_, ?_⟩
      · rw [checkTableNames, if_neg hname, if_neg hnew, if_neg htag]
        exact hbefore
      · rw [List.reverse_cons, List.append_assoc] at hfault
        exact hfault

theorem fault_of_checkFieldNames {tables : List TableDecl} {t : TableDecl}
    {earlier l : List FieldDecl} (hfields : t.fields = earlier.reverse ++ l)
    (h : checkFieldNames t.name earlier l = .error e) : t.Fault tables e := by
  induction l generalizing earlier with
  | nil => cases h
  | cons f l ih =>
    have hf : f ∈ t.fields := by
      rw [hfields]
      exact List.mem_append_right _ List.mem_cons_self
    have hrepeated : ∀ g ∈ earlier, g.name = f.name ∨ g.effectiveTag = f.effectiveTag →
        t.Fault tables (.duplicateField t.name f.name) :=
      fun g hg hsame => .repeated hfields (List.mem_reverse.2 hg) hsame
    rw [checkFieldNames, refuse_eq_error_iff, refuse_eq_error_iff, refuse_eq_error_iff,
      refuse_eq_error_iff] at h
    rcases h with ⟨hname, rfl⟩ |
      ⟨_, ⟨hnew, rfl⟩ | ⟨_, ⟨hany, rfl⟩ | ⟨_, ⟨hany, rfl⟩ | ⟨_, h⟩⟩⟩⟩
    · exact .noName hf ((not_isName_iff f.name).1 hname)
    · have hnew' : f.name = "new" := hnew
      rw [hnew']
      exact .constructorName hf hnew'
    · obtain ⟨g, hg, hsame⟩ := List.any_eq_true.1 hany
      exact hrepeated g hg (Or.inl (by simpa using hsame))
    · obtain ⟨g, hg, hsame⟩ := List.any_eq_true.1 hany
      exact hrepeated g hg (Or.inr (by simpa using hsame))
    · refine ih ?_ h
      rw [List.reverse_cons, List.append_assoc]
      exact hfields

theorem fault_of_checkSetters {tables : List TableDecl} {t : TableDecl}
    (h : checkSetters t.name t.fields = .error e) : t.Fault tables e := by
  unfold checkSetters at h
  split at h
  · next f hf =>
    obtain ⟨g, hg, heq⟩ : ∃ g ∈ t.fields, g.name = setterName f.name := by
      simpa using List.find?_some hf
    cases h
    rw [← heq]
    exact .setterName (List.mem_of_find?_eq_some hf) hg heq
  · cases h

/-! ## Tables -/

theorem fault_of_resolveTable {tables : List TableDecl} (htables : (tables.map (·.tag)).Nodup)
    {t : Origin × TableDecl} (h : resolveTable tables t.1 t.2 = .error e) : t.2.Fault tables e := by
  simp only [resolveTable, bind_eq_error_iff] at h
  rcases h with h | ⟨_, hfields, h | ⟨_, hsetters, h | ⟨_, _, h⟩⟩⟩
  · exact fault_of_checkFieldNames rfl h
  · exact fault_of_checkSetters h
  · have hw := checkNames_eq_ok_iff.1 ⟨hfields, hsetters⟩
    obtain ⟨before, f, after, hsplit, _, hf⟩ := mapM_eq_error_iff.1 h
    have hmem : f ∈ t.2.fields := by
      rw [hsplit]
      exact List.mem_append_right _ List.mem_cons_self
    exact .field hmem (fault_of_resolveField htables hw.names hw.tags hmem hf)
  · cases h

theorem resolveTable_isOk_iff {tables : List TableDecl} (htables : (tables.map (·.tag)).Nodup)
    {t : Origin × TableDecl} :
    (∃ out, resolveTable tables t.1 t.2 = .ok out) ↔ t.2.Valid tables := by
  rw [TableDecl.valid_iff]
  exact exists_congr fun _ => resolveTable_eq_ok_iff htables

end

/-! ## Documents -/

theorem not_wellNamed_of_nameFault {earlier later : List TableDecl} {t : TableDecl}
    {e : SchemaError} (h : t.NameFault earlier e) : ¬WellNamed (earlier ++ t :: later) := by
  intro hw
  have hdistinct : ∀ {key : TableDecl → String} {u : TableDecl},
      ((earlier ++ t :: later).map key).Nodup → u ∈ earlier → key u ≠ key t := by
    intro key u hnodup hu
    rw [List.map_append, List.map_cons, List.nodup_append] at hnodup
    exact hnodup.2.2 _ (List.mem_map_of_mem hu) _ List.mem_cons_self
  cases h with
  | noName hname => exact hname (hw.identifiers t (List.mem_append_right _ List.mem_cons_self))
  | sameName hu hsame => exact hdistinct hw.names hu hsame
  | sameTag hu hsame => exact hdistinct hw.tags hu hsame

/-- A refusal is for a name or a tag of a table, or for the fields of the first table that does not
keep the rules. -/
theorem fault_of_ofDeclarations {d : Declarations} {e : SchemaError}
    (h : TableSet.ofDeclarations d = .error e) :
    (∃ earlier t later, d.tables.map (·.2) = earlier ++ t :: later ∧ WellNamed earlier ∧
        t.NameFault earlier e) ∨
      WellNamed (d.tables.map (·.2)) ∧ ∃ earlier t later,
        d.tables.map (·.2) = earlier ++ t :: later ∧
          (∀ u ∈ earlier, u.Valid (d.tables.map (·.2))) ∧ ¬t.Valid (d.tables.map (·.2)) ∧
          t.Fault (d.tables.map (·.2)) e := by
  simp only [TableSet.ofDeclarations, bind_eq_error_iff] at h
  rcases h with h | ⟨_, hnames, h | ⟨_, _, h⟩⟩
  · obtain ⟨earlier, t, later, hsplit, hearlier, hfault⟩ := nameFault_of_checkTableNames h
    exact Or.inl ⟨earlier, t, later, hsplit, checkTableNames_nil_eq_ok_iff.1 hearlier, hfault⟩
  · have hw := checkTableNames_nil_eq_ok_iff.1 hnames
    obtain ⟨earlier, t, later, hsplit, hearlier, ht⟩ := mapM_eq_error_iff.1 h
    refine Or.inr ⟨hw, earlier.map (·.2), t.2, later.map (·.2), ?_, ?_, ?_, ?_⟩
    · rw [hsplit, List.map_append, List.map_cons]
    · rw [List.forall_mem_map]
      exact fun u hu => (resolveTable_isOk_iff hw.tags).1 (hearlier u hu)
    · rw [← resolveTable_isOk_iff (t := t) hw.tags]
      rintro ⟨out, hout⟩
      rw [ht] at hout
      cases hout
    · exact fault_of_resolveTable hw.tags ht
  · cases h

/-- An error names a rule of declarations.  It is not that a document cannot be read, nor that a field
refers to itself, for which there is a wording. -/
structure SchemaError.OfRule (e : SchemaError) : Prop where
  readable : ∀ reason, e ≠ .malformed reason
  noSelf : ∀ table field, e ≠ .incompatibleType table field "a field cannot refer to itself"

section

variable {tables : List TableDecl} {fields : List FieldDecl} {site : Site} {e : SchemaError}

/-- A reason that starts with a quoted name is not the one of a field that refers to itself. -/
theorem ofRule_of_quoted (table field : String) {reason : String}
    (h : reason.toList.head? = some '`') :
    (SchemaError.incompatibleType table field reason).OfRule := by
  refine ⟨nofun, fun table' field' heq => ?_⟩
  cases heq
  exact absurd h (by decide)

theorem mismatchReason_head (luaType : LuaType) (type : ValueType) :
    (mismatchReason luaType type).toList.head? = some '`' := by
  simp [mismatchReason, toString]

theorem TableDecl.NameFault.ofRule {earlier : List TableDecl} {t : TableDecl}
    (h : t.NameFault earlier e) : e.OfRule := by
  cases h <;> exact ⟨nofun, nofun⟩

theorem ReferenceFault.ofRule {text : String} (h : ReferenceFault fields site text e) :
    e.OfRule := by
  cases h with
  | unresolved => exact ⟨nofun, nofun⟩
  | noInteger => exact ofRule_of_quoted _ _ (by simp [toString])

theorem TypeFault.ofRule {count : Option CountDecl} {luaType : LuaType} {text : String}
    (h : TypeFault tables site count luaType text e) : e.OfRule := by
  cases h with
  | unresolved => exact ⟨nofun, nofun⟩
  | noTable => exact ⟨nofun, fun _ _ h => absurd (SchemaError.incompatibleType.inj h).2.2 (by decide)⟩
  | foreign => exact ofRule_of_quoted _ _ (mismatchReason_head _ _)
  | single => exact ofRule_of_quoted _ _ (mismatchReason_head _ _)

theorem CaseDecl.Fault.ofRule {earlier : List CaseDecl} {c : CaseDecl}
    (h : c.Fault tables site earlier e) : e.OfRule := by
  cases h with
  | repeated => exact ⟨nofun, nofun⟩
  | conditional => exact ⟨nofun, nofun⟩
  | type h => exact h.ofRule

theorem FieldDecl.Fault.ofRule {table : String} {f : FieldDecl}
    (h : f.Fault tables table fields e) : e.OfRule := by
  cases h with
  | noValues =>
    exact ⟨nofun, fun _ _ h => absurd (SchemaError.incompatibleType.inj h).2.2 (by decide)⟩
  | count _ _ h => exact h.ofRule
  | condition _ _ h => exact h.ofRule
  | case _ _ h => exact h.ofRule
  | type _ _ h => exact h.ofRule
  | _ => exact ⟨nofun, nofun⟩

theorem TableDecl.Fault.ofRule {t : TableDecl} (h : t.Fault tables e) : e.OfRule := by
  cases h with
  | field _ h => exact h.ofRule
  | _ => exact ⟨nofun, nofun⟩

end

theorem ofRule_of_ofDeclarations {d : Declarations} {e : SchemaError}
    (h : TableSet.ofDeclarations d = .error e) : e.OfRule := by
  rcases fault_of_ofDeclarations h with ⟨_, _, _, _, _, hfault⟩ | ⟨_, _, _, _, _, _, _, hfault⟩
  · exact hfault.ofRule
  · exact hfault.ofRule

/-- Resolution never says that a document cannot be read. -/
theorem notMalformed_ofDeclarations (d : Declarations) (reason : String) :
    TableSet.ofDeclarations d ≠ .error (.malformed reason) :=
  fun h => (ofRule_of_ofDeclarations h).readable reason rfl

/-- Every error is true of the declarations.  Where a name or a tag of a table is at fault anywhere, it
is about the first such table; elsewhere it is about the first table that does not keep the rules.  It
is never that a field refers to itself. -/
theorem refusal_truthful {d : Declarations} {e : SchemaError}
    (h : TableSet.ofDeclarations d = .error e) :
    (¬WellNamed (d.tables.map (·.2)) → ∃ earlier t later,
        d.tables.map (·.2) = earlier ++ t :: later ∧ WellNamed earlier ∧ t.NameFault earlier e) ∧
      (WellNamed (d.tables.map (·.2)) → ∃ earlier t later,
        d.tables.map (·.2) = earlier ++ t :: later ∧
          (∀ u ∈ earlier, u.Valid (d.tables.map (·.2))) ∧ ¬t.Valid (d.tables.map (·.2)) ∧
          t.Fault (d.tables.map (·.2)) e) ∧
      ∀ table field, e ≠ .incompatibleType table field "a field cannot refer to itself" := by
  refine ⟨fun hnot => ?_, fun hw => ?_, (ofRule_of_ofDeclarations h).noSelf⟩
  · rcases fault_of_ofDeclarations h with hname | ⟨hw, _⟩
    · exact hname
    · exact absurd hw hnot
  · rcases fault_of_ofDeclarations h with ⟨earlier, t, later, hsplit, _, hfault⟩ | ⟨_, htable⟩
    · rw [hsplit] at hw
      exact absurd hw (not_wellNamed_of_nameFault hfault)
    · exact htable

/-- The second table has a count that refers to its own field, and a field with no type; the third has
a name that is reserved. -/
def faultyDeclarations : Declarations where
  definition := [⟨"unit", "unit_t", []⟩]
  read := [
    ⟨"node", "node_t", [
      ⟨"n", none, some "uint8", .integer, none, none, []⟩,
      ⟨"xs", none, some "uint8", .table, some (.named "self::xs"), none, []⟩,
      ⟨"v", none, none, .integer, none, none, []⟩]⟩,
    ⟨"leaf", "leaf_t", [⟨"new", none, some "uint8", .integer, none, none, []⟩]⟩]

theorem refusal_truthful_faulty :
    TableSet.ofDeclarations faultyDeclarations =
        .error (.incompatibleType "node_t" "xs" "`xs` must be a single integer field") ∧
      WellNamed (faultyDeclarations.tables.map (·.2)) ∧
      ∃ earlier t later, faultyDeclarations.tables.map (·.2) = earlier ++ t :: later ∧
        (∀ u ∈ earlier, u.Valid (faultyDeclarations.tables.map (·.2))) ∧
        ¬t.Valid (faultyDeclarations.tables.map (·.2)) ∧
        t.Fault (faultyDeclarations.tables.map (·.2))
          (.incompatibleType "node_t" "xs" "`xs` must be a single integer field") := by
  have hrefused : TableSet.ofDeclarations faultyDeclarations =
      .error (.incompatibleType "node_t" "xs" "`xs` must be a single integer field") := rfl
  have hnames : checkTableNames [] (faultyDeclarations.tables.map (·.2)) = .ok () := rfl
  have hw := checkTableNames_nil_eq_ok_iff.1 hnames
  exact ⟨hrefused, hw, (refusal_truthful hrefused).2.1 hw⟩

end RecordTables
