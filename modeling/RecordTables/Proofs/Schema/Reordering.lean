import Mathlib.Data.List.Perm.Basic
import RecordTables.Proofs.Schema.WellFormed

/-!
The order of declarations.

Tables may be declared in any order and in either list of a document, and the fields of a table in
any order.  A reference is a tag in a document and an index in a table, so that the indices are the
only thing in a table that depends on the order: where the fields move, the references move with
them.  `resolves_of_rearranges` says so of a whole document.

Of the rules for declarations, the ones on names are rules on lists without an order.  References
are looked up, and what is found in one list by its index is found in the other by `movedIndex`.
-/

namespace RecordTables

/-- The same table with its fields in any order. -/
structure TableDecl.Rearranges (t u : TableDecl) : Prop where
  tag : u.tag = t.tag
  name : u.name = t.name
  fields : t.fields.Perm u.fields

/-- The same tables in any order and in either list, each with its fields in any order. -/
def Declarations.Rearranges (d e : Declarations) : Prop :=
  ∃ tables, (d.definition ++ d.read).Perm tables ∧
    List.Forall₂ TableDecl.Rearranges tables (e.definition ++ e.read)

def Arity.renumbered (σ : Nat → Nat) : Arity → Arity
  | .one => .one
  | .fixed n => .fixed n
  | .counted index => .counted (σ index)
  | .unbounded => .unbounded

/-- The field of a table whose fields are numbered anew. -/
def Field.renumbered (σ : Nat → Nat) (f : Field) : Field :=
  { f with
    arity := f.arity.renumbered σ
    condition := f.condition.map fun c => { c with field := σ c.field } }

/-- The same table, of any origin, after its fields have moved.  Each field is found where `σ` sends
its index, and what it referred to at an index it now refers to where `σ` sends that. -/
structure Table.Moves (σ : Nat → Nat) (t u : Table) : Prop where
  tag : u.tag = t.tag
  name : u.name = t.name
  fields : (t.fields.map (Field.renumbered σ)).Perm u.fields
  found : ∀ index f, t.fields[index]? = some f → u.fields[σ index]? = some (f.renumbered σ)

/-- The same tables in any order, each with its fields in any order. -/
def TableSet.Reorders (s s' : TableSet) : Prop :=
  ∃ tables, s.tables.Perm tables ∧
    List.Forall₂ (fun t u => ∃ σ, Table.Moves σ t u) tables s'.tables

/-! ## Rearranged documents -/

theorem Declarations.tables_map_snd (d : Declarations) :
    d.tables.map (·.2) = d.definition ++ d.read := by
  unfold Declarations.tables
  rw [List.map_append, List.map_map, List.map_map]
  exact congrArg₂ (· ++ ·) (List.map_id d.definition) (List.map_id d.read)

theorem TableDecl.Rearranges.symm {t u : TableDecl} (h : t.Rearranges u) : u.Rearranges t :=
  ⟨h.tag.symm, h.name.symm, h.fields.symm⟩

theorem Declarations.Rearranges.symm {d e : Declarations} (h : d.Rearranges e) :
    e.Rearranges d := by
  obtain ⟨tables, hperm, htables⟩ := h
  obtain ⟨tables', hd, he⟩ := List.perm_comp_forall₂ hperm htables
  exact ⟨tables', he.symm, (hd.flip).imp fun _ _ h => h.symm⟩

theorem Declarations.Rearranges.key_perm {d e : Declarations} (h : d.Rearranges e) {α : Type}
    (key : TableDecl → α) (hkey : ∀ t u, TableDecl.Rearranges t u → key u = key t) :
    ((d.definition ++ d.read).map key).Perm ((e.definition ++ e.read).map key) := by
  obtain ⟨tables, hperm, htables⟩ := h
  rw [← map_eq_map_of_forall₂ (fun t u h => (hkey t u h).symm) htables]
  exact hperm.map key

theorem Declarations.Rearranges.has {d e : Declarations} (h : d.Rearranges e) :
    ∀ t ∈ d.definition ++ d.read,
      ∃ u ∈ e.definition ++ e.read, u.tag = t.tag ∧ u.name = t.name := by
  intro t ht
  have hperm := h.key_perm (fun t => (t.tag, t.name)) fun t u h => by rw [h.tag, h.name]
  obtain ⟨u, hu, heq⟩ := List.mem_map.1 (hperm.mem_iff.1 (List.mem_map_of_mem ht))
  exact ⟨u, hu, (Prod.mk.inj heq).1, (Prod.mk.inj heq).2⟩

theorem Declarations.Rearranges.wellNamed {d e : Declarations} (h : d.Rearranges e)
    (hw : WellNamed (d.definition ++ d.read)) : WellNamed (e.definition ++ e.read) := by
  have hnames := h.key_perm (·.name) fun _ _ h => h.name
  have htags := h.key_perm (·.tag) fun _ _ h => h.tag
  refine ⟨fun u hu => ?_, hnames.nodup_iff.1 hw.names, htags.nodup_iff.1 hw.tags⟩
  obtain ⟨t, ht, _, hname⟩ := h.symm.has u hu
  rw [← hname]
  exact hw.identifiers t ht

theorem TableDecl.Rearranges.wellNamed {t u : TableDecl} (h : t.Rearranges u) (hw : t.WellNamed) :
    u.WellNamed := by
  have hmem : ∀ {f}, f ∈ u.fields → f ∈ t.fields := fun hf => h.fields.mem_iff.2 hf
  exact ⟨fun f hf => hw.identifiers f (hmem hf), fun f hf => hw.noConstructor f (hmem hf),
    (h.fields.map _).nodup_iff.1 hw.names, (h.fields.map _).nodup_iff.1 hw.tags,
    fun f hf g hg => hw.noSetter f (hmem hf) g (hmem hg)⟩

/-! ## Moved fields -/

/-- Where in a list the field is that another one has at an index. -/
def movedIndex (fields fields' : List FieldDecl) (index : Nat) : Nat :=
  match fields[index]? with
  | some f => fields'.idxOf f
  | none => index

theorem fits_renumbered {σ : Nat → Nat} {arity : Arity} {luaType : LuaType} {type : ValueType}
    (h : Fits arity luaType type) : Fits (arity.renumbered σ) luaType type := by
  cases h with
  | single hr => exact .single hr
  | sequence ha ht =>
    refine .sequence ?_ ht
    cases arity with
    | one => exact absurd rfl ha
    | fixed _ => exact Arity.noConfusion
    | counted _ => exact Arity.noConfusion
    | unbounded => exact Arity.noConfusion

section

variable {fields fields' : List FieldDecl} (hperm : fields.Perm fields')

include hperm

theorem getElem?_movedIndex {index : Nat} {f : FieldDecl} (h : fields[index]? = some f) :
    fields'[movedIndex fields fields' index]? = some f := by
  unfold movedIndex
  rw [h]
  exact List.getElem?_idxOf (hperm.mem_iff.1 (List.mem_of_getElem? h))

theorem RefersTo.moved {text : String} {index : Nat} (h : RefersTo fields text index) :
    RefersTo fields' text (movedIndex fields fields' index) := by
  obtain ⟨g, hg, hrest⟩ := h
  exact ⟨g, getElem?_movedIndex hperm hg, hrest⟩

theorem CountResolves.moved {count : Option CountDecl} {arity : Arity}
    (h : CountResolves fields count arity) :
    CountResolves fields' count (arity.renumbered (movedIndex fields fields')) := by
  cases h with
  | absent => exact .absent
  | one => exact .one
  | fixed hn => exact .fixed hn
  | any => exact .any
  | sibling hr => exact .sibling (hr.moved hperm)

variable {tables tables' : List TableDecl}
  (htables : ∀ t ∈ tables, ∃ u ∈ tables', u.tag = t.tag ∧ u.name = t.name)

include htables

theorem FieldDecl.ResolvesTo.moved {f : FieldDecl} {field : Field}
    (h : f.ResolvesTo tables fields field) :
    f.ResolvesTo tables' fields' (field.renumbered (movedIndex fields fields')) := by
  cases h with
  | conditional hl hn hc hr hne hd hcases =>
    exact .conditional hl hn hc (hr.moved hperm) hne hd
      (hcases.imp fun _ _ hcase => hcase.mono htables)
  | plain hl hc hcases ht htype hn hfits =>
    exact .plain hl hc hcases ht (htype.mono htables) (hn.moved hperm) (fits_renumbered hfits)

end

/-- A declared field stands for one field only. -/
theorem FieldDecl.ResolvesTo.unique {tables : List TableDecl}
    (htables : (tables.map (·.tag)).Nodup) {t : TableDecl} (hw : t.WellNamed) {f : FieldDecl}
    (hf : f ∈ t.fields) {field field' : Field} (h : f.ResolvesTo tables t.fields field)
    (h' : f.ResolvesTo tables t.fields field') : field = field' := by
  have hresolve : ∀ {field}, f.ResolvesTo tables t.fields field →
      resolveField tables t.name t.fields f = .ok field :=
    (resolveField_eq_ok_iff htables hw.names hw.tags hf).2
  exact Except.ok.inj ((hresolve h).symm.trans (hresolve h'))

/-! ## Rearranged tables -/

theorem TableDecl.ResolvesTo.rearranged {tables tables' : List TableDecl}
    (htags : (tables'.map (·.tag)).Nodup)
    (htables : ∀ t ∈ tables, ∃ u ∈ tables', u.tag = t.tag ∧ u.name = t.name)
    {t u : Origin × TableDecl} {out : Table} (h : TableDecl.ResolvesTo tables t out)
    (hr : t.2.Rearranges u.2) :
    ∃ out', TableDecl.ResolvesTo tables' u out' ∧ ∃ σ, out.Moves σ out' := by
  have hw := hr.wellNamed h.wellNamed
  have hmoved : List.Forall₂ (FieldDecl.ResolvesTo tables' u.2.fields) t.2.fields
      (out.fields.map (Field.renumbered (movedIndex t.2.fields u.2.fields))) :=
    List.forall₂_map_right_iff.2 (h.fields.imp fun _ _ hf => hf.moved hr.fields htables)
  obtain ⟨fields, hfields, hperm⟩ := List.perm_comp_forall₂ hr.fields.symm hmoved
  refine ⟨⟨u.2.tag, u.2.name, u.1, fields⟩, ⟨hw, rfl, rfl, rfl, hfields⟩,
    movedIndex t.2.fields u.2.fields, hr.tag.trans h.tag.symm, hr.name.trans h.name.symm,
    hperm.symm, fun index field hfield => ?_⟩
  -- The field comes from a declared one, which has moved in the same way and stands for one field.
  obtain ⟨f, hf, hresolved⟩ := exists_getElem?_of_forall₂ h.fields.flip hfield
  have hfound := getElem?_movedIndex hr.fields hf
  obtain ⟨field', hfield', hresolved'⟩ := exists_getElem?_of_forall₂ hfields hfound
  rw [hfield']
  exact congrArg some (hresolved'.unique htags hw (List.mem_of_getElem? hfound)
    (hresolved.moved hr.fields htables))

/-! ## Rearranged table sets -/

theorem exists_forall₂_comp {α β γ δ : Type} {R : α → β → Prop} {S : α → γ → Prop}
    {P : β → δ → Prop} {Q : γ → δ → Prop}
    (h : ∀ a b c, R a b → S a c → ∃ d, Q c d ∧ P b d) {l : List α} {l₁ : List β} {l₂ : List γ}
    (hr : List.Forall₂ R l l₁) (hs : List.Forall₂ S l l₂) :
    ∃ out, List.Forall₂ Q l₂ out ∧ List.Forall₂ P l₁ out := by
  induction hr generalizing l₂ with
  | nil =>
    cases hs
    exact ⟨[], .nil, .nil⟩
  | cons hab _ ih =>
    cases hs with
    | cons hac hs =>
      obtain ⟨d, hq, hp⟩ := h _ _ _ hab hac
      obtain ⟨out, hout₂, hout₁⟩ := ih hs
      exact ⟨d :: out, .cons hq hout₂, .cons hp hout₁⟩

theorem Declarations.ResolvesTo.rearranged {d e : Declarations} {s : TableSet}
    (h : d.ResolvesTo s) (hr : d.Rearranges e) : ∃ s', e.ResolvesTo s' ∧ s.Reorders s' := by
  obtain ⟨hw, htables⟩ := h
  rw [d.tables_map_snd] at hw htables
  have hwe := hr.wellNamed hw
  have hhas := hr.has
  obtain ⟨tables, hperm, hrearranged⟩ := hr
  -- Where a table was declared is forgotten first, for it moves between the lists of a document.
  have hresolved : List.Forall₂
      (fun t out => ∃ origin, TableDecl.ResolvesTo (d.definition ++ d.read) (origin, t) out)
      (d.definition ++ d.read) s.tables := by
    rw [← d.tables_map_snd, List.forall₂_map_left_iff, d.tables_map_snd]
    exact htables.imp fun t _ h => ⟨t.1, h⟩
  obtain ⟨between, hbetween, hs⟩ := List.perm_comp_forall₂ hperm.symm hresolved
  rw [← e.tables_map_snd, List.forall₂_map_right_iff] at hrearranged
  obtain ⟨out, hout, hmoves⟩ := exists_forall₂_comp (fun t between u ht hr => by
    obtain ⟨_, ht⟩ := ht
    exact ht.rearranged hwe.tags hhas hr) hbetween hrearranged
  refine ⟨⟨out⟩, ⟨?_, ?_⟩, between, hs.symm, hmoves⟩
  · rw [e.tables_map_snd]
    exact hwe
  · rw [e.tables_map_snd]
    exact hout

/-- Rearranged declarations are accepted if the declarations are, and as the same tables with
the same fields in another order. -/
theorem resolves_of_rearranges {d e : Declarations} (h : d.Rearranges e) :
    ((∃ s, TableSet.ofDeclarations d = .ok s) ↔ ∃ s', TableSet.ofDeclarations e = .ok s') ∧
      ∀ s s', TableSet.ofDeclarations d = .ok s → TableSet.ofDeclarations e = .ok s' →
        s.Reorders s' := by
  have hone : ∀ {d e : Declarations}, d.Rearranges e → ∀ {s},
      TableSet.ofDeclarations d = .ok s →
      ∃ s', TableSet.ofDeclarations e = .ok s' ∧ s.Reorders s' := by
    intro d e h s hs
    obtain ⟨s', hs', hreorders⟩ := (resolves_iff.1 hs).rearranged h
    exact ⟨s', resolves_iff.2 hs', hreorders⟩
  refine ⟨⟨?_, ?_⟩, fun s s' hs hs' => ?_⟩
  · intro haccepted
    obtain ⟨s, hs⟩ := haccepted
    obtain ⟨s', hs', _⟩ := hone h hs
    exact ⟨s', hs'⟩
  · intro haccepted
    obtain ⟨s', hs'⟩ := haccepted
    obtain ⟨s, hs, _⟩ := hone h.symm hs'
    exact ⟨s, hs⟩
  · obtain ⟨s'', hs'', hreorders⟩ := hone h hs
    cases hs'.symm.trans hs''
    exact hreorders

/-! ## An example

A crate of parcels, the parcels each with a number of stamps, and the same in another order. -/

def crateDeclarations : Declarations where
  read := [
    ⟨"crate", "crate_t", [
      ⟨"n", none, some "uint8", .integer, none, none, []⟩,
      ⟨"parcels", none, some "self::parcel", .table, some (.named "self::n"), none, []⟩]⟩,
    ⟨"parcel", "parcel_t", [⟨"stamps", none, some "uint8", .integer, none, none, []⟩]⟩]
  definition := []

def crateRearranged : Declarations where
  read := [
    ⟨"crate", "crate_t", [
      ⟨"parcels", none, some "self::parcel", .table, some (.named "self::n"), none, []⟩,
      ⟨"n", none, some "uint8", .integer, none, none, []⟩]⟩]
  definition := [
    ⟨"parcel", "parcel_t", [⟨"stamps", none, some "uint8", .integer, none, none, []⟩]⟩]

theorem crate_resolves :
    crateDeclarations.Rearranges crateRearranged ∧
      ∃ s s', TableSet.ofDeclarations crateDeclarations = .ok s ∧
        TableSet.ofDeclarations crateRearranged = .ok s' ∧ s.Reorders s' := by
  have hrearranges : crateDeclarations.Rearranges crateRearranged := by
    refine ⟨crateDeclarations.read.reverse, (List.reverse_perm _).symm, ?_⟩
    exact .cons ⟨rfl, rfl, .refl _⟩ (.cons ⟨rfl, rfl, .swap _ _ _⟩ .nil)
  have hs : ∃ s, TableSet.ofDeclarations crateDeclarations = .ok s := ⟨_, rfl⟩
  obtain ⟨hiff, hreorders⟩ := resolves_of_rearranges hrearranges
  obtain ⟨s, hs⟩ := hs
  obtain ⟨s', hs'⟩ := hiff.1 ⟨s, hs⟩
  exact ⟨hrearranges, s, s', hs, hs', hreorders s s' hs hs'⟩

end RecordTables
