import RecordTables.Proofs.Record.Commuting

/-!
The form in which a record stores what a field is set to.

`Field.StoresAs` says what a field makes of a content: integers become floating point numbers in a
field of numbers, whatever stands for an integer becomes it in a field of integers, and anything
else stays what it is.  A content that is stored is in this form already, so that setting a field to
what it holds changes nothing.  For a field with a count or a selector this needs the count or the
selector of the time when the content was stored, since these may have changed in the meantime.
-/

namespace RecordTables

/-! ## Stored forms -/

/-- What a representation makes of a value. -/
inductive Value.StoredAs : LuaType → ValueType → Value → Value → Prop
  | integer {s : ScalarType} {v : Value} {i : Int64} (h : v.StandsFor s i.toInt) :
      StoredAs .integer (.scalar s) v (.integer i)
  | ofInteger (type : ValueType) (i : Int64) :
      StoredAs .number type (.integer i) (.float (.ofInt i.toInt))
  | itself {luaType : LuaType} {type : ValueType} {v : Value} (hl : luaType ≠ .integer)
      (hn : luaType = .number → ∃ x, v = .float x) : StoredAs luaType type v v

/-- How an item of a type is represented in a sequence. -/
def ValueType.itemType : ValueType → LuaType
  | .scalar s => s.itemType
  | .table _ => .table
  | .foreign _ => .table

/-- What a field of a record makes of a content. -/
inductive Field.StoresAs (t : Table) (values : FieldValues) (f : Field) : Content → Content → Prop
  | nothing : f.StoresAs t values .nil .nil
  | single {type : ValueType} {v w : Value} (ha : f.arity = .one) (hc : f.condition = none)
      (ht : f.type = some type) (hv : v.StoredAs f.luaType type w) :
      f.StoresAs t values (.single v) (.single w)
  | sequence {type : ValueType} {items stored : List Value} (ha : f.arity ≠ .one)
      (ht : f.type = some type)
      (hitems : List.Forall₂ (Value.StoredAs type.itemType type) items stored) :
      f.StoresAs t values (.sequence items) (.sequence stored)
  | chosen {condition : Condition} {g : Field} {n : Int64} {choice : Case} {v w : Value}
      (hc : f.condition = some condition) (hg : t.fields[condition.field]? = some g)
      (hn : values.get g.name = .single (.integer n))
      (hcase : condition.case? n.toInt = some choice)
      (hv : v.StoredAs choice.luaType choice.type w) : f.StoresAs t values (.single v) (.single w)

/-! ## Single values and items -/

section

variable {names : RecordNames} {place : Place} {luaType : LuaType} {type : ValueType}
  {v w : Value}

theorem storedAs_of_checkSingle (hr : Represents luaType type)
    (h : checkSingle names place luaType type (.single v) = .ok w) :
    v.StoredAs luaType type w := by
  cases hr with
  | integer =>
    obtain ⟨i, hi, rfl⟩ := checkInteger_eq_ok h
    exact .integer (integer?_eq_some_iff.1 hi)
  | number =>
    cases v with
    | integer i =>
      cases h
      exact .ofInteger _ i
    | float x =>
      cases h
      exact .itself LuaType.noConfusion fun _ => ⟨x, rfl⟩
    | _ => cases h
  | table name =>
    rw [checkRecord_eq_ok h]
    exact .itself LuaType.noConfusion LuaType.noConfusion
  | _ =>
    have hsame : w = v := by
      cases v <;> cases h <;> rfl
    rw [hsame]
    exact .itself LuaType.noConfusion LuaType.noConfusion

/-- An item is checked like a single value of its representation. -/
theorem checkItem_eq_single (hknown : ∀ name, type ≠ .foreign name) :
    Represents type.itemType type ∧
      ∀ names place v, checkItem names place type v =
        checkSingle names place type.itemType type (.single v) := by
  cases type with
  | scalar s => exact ⟨represents_itemType s, fun _ _ _ => rfl⟩
  | table name => exact ⟨.table name, fun _ _ _ => rfl⟩
  | foreign name => exact absurd rfl (hknown name)

theorem StoredItem.stored (h : StoredItem names type v) : Stored names type.itemType type v := by
  cases h with
  | @integer s _ _ i hb hl hh =>
    show Stored names s.itemType (.scalar s) (.integer i)
    rw [ScalarType.itemType_of_bounds hb]
    exact .integer hb hl hh
  | float hs x =>
    rcases hs with rfl | rfl
    · exact .number _ x
    · exact .number _ x
  | string bytes => exact .string _ bytes
  | record hr => exact .record hr

theorem StoredItem.ne_nil (h : StoredItem names type v) : v ≠ .nil := by
  cases h <;> exact Value.noConfusion

theorem storedAs_of_checkItems (hknown : ∀ name, type ≠ .foreign name) {index : Nat}
    {items stored : List Value} (h : checkItems names place type index items = .ok stored) :
    List.Forall₂ (Value.StoredAs type.itemType type) items stored := by
  obtain ⟨hr, hsingle⟩ := checkItem_eq_single hknown
  induction items generalizing index stored with
  | nil =>
    cases h
    exact .nil
  | cons v items ih =>
    rw [checkItems] at h
    obtain ⟨w, hw, h⟩ := bind_eq_ok_iff.1 h
    obtain ⟨rest, hrest, h⟩ := bind_eq_ok_iff.1 h
    cases h
    rw [hsingle] at hw
    exact .cons (storedAs_of_checkSingle hr hw) (ih hrest)

theorem checkItems_stored (hknown : ∀ name, type ≠ .foreign name) (place : Place) (index : Nat)
    {items : List Value} (h : ∀ v ∈ items, StoredItem names type v) :
    checkItems names place type index items = .ok items := by
  induction items generalizing index with
  | nil => rfl
  | cons v items ih =>
    rw [List.forall_mem_cons] at h
    rw [checkItems, (checkItem_eq_single hknown).2, checkSingle_stored names _ h.1.stored, ok_bind,
      ih (index + 1) h.2]
    rfl

end

/-! ## Fields -/

section

variable {names : RecordNames} {t : Table} {f : Field} {values : FieldValues}
  {c stored : Content}

theorem checkSequence_eq_ok {place : Place} {arity : Arity} {type : ValueType}
    {out : List Value} (h : checkSequence names place arity type c = .ok out) :
    ∃ items, c = .sequence items ∧ checkItems names place type 1 items = .ok out := by
  cases c with
  | single v => cases h
  | sequence items =>
    refine ⟨items, rfl, ?_⟩
    cases arity with
    | fixed n =>
      change (if items.length = n then checkItems names place type 1 items
        else .error (.wrongLength place n items.length)) = .ok out at h
      by_cases hn : items.length = n
      · rw [if_pos hn] at h
        exact h
      · rw [if_neg hn] at h
        cases h
    | _ => exact h

theorem storesAs_of_checkField (hf : f.WellFormed t) (hl : f.luaType ≠ .conditional)
    (h : checkField names t f c = .ok stored) : f.StoresAs t values c stored := by
  cases hf with
  | single ha hc ht hr =>
    rw [checkField_of_one ha ht, map_eq_ok_iff] at h
    obtain ⟨w, hw, rfl⟩ := h
    cases c with
    | single v => exact .single ha hc ht (storedAs_of_checkSingle hr hw)
    | sequence items => exact absurd hw (checkSingle_sequence hr)
  | sequence ha _ ht _ hknown =>
    rw [checkField_of_sequence ha ht, map_eq_ok_iff] at h
    obtain ⟨out, hout, rfl⟩ := h
    obtain ⟨items, rfl, hitems⟩ := checkSequence_eq_ok hout
    exact .sequence ha ht (storedAs_of_checkItems hknown hitems)
  | conditional _ _ hcond => exact absurd hcond hl

/-- What a field that is not conditional holds passes its check as it is. -/
theorem checkField_of_holdsPlain (hf : f.WellFormed t) (hl : f.luaType ≠ .conditional)
    (h : f.HoldsPlain names c) (hc : c ≠ .nil) : checkField names t f c = .ok c := by
  cases h with
  | unset => exact absurd rfl hc
  | single ha ht hv =>
    rw [checkField_of_one ha ht, checkSingle_stored names _ hv]
    rfl
  | @sequence type items ha ht hn hitems =>
    have hknown : ∀ name, type ≠ .foreign name := by
      cases hf with
      | single hone => exact absurd hone ha
      | conditional _ _ hcond => exact absurd hcond hl
      | sequence _ _ ht' _ hknown =>
        rw [ht] at ht'
        cases ht'
        exact hknown
    have hchecked : checkSequence names (t.place f) f.arity type (.sequence items) = .ok items := by
      have hitems := checkItems_stored hknown (t.place f) 1 hitems
      unfold checkSequence
      cases ha' : f.arity with
      | fixed n => exact (if_pos (hn n ha')).trans hitems
      | _ => exact hitems
    rw [checkField_of_sequence ha ht, hchecked]
    rfl

theorem Field.HoldsPlain.mayBeUnset (h : f.HoldsPlain names .nil) : f.MayBeUnset := by
  generalize hc : Content.nil = c at h
  cases h with
  | unset h => exact h
  | single _ _ hv =>
    cases hc
    unfold Field.MayBeUnset
    generalize f.luaType = luaType at hv
    cases hv with
    | noLight => decide
  | sequence => cases hc

theorem storedForm_nil (h : f.MayBeUnset) : storedForm names t f values .nil = .ok .nil := by
  obtain ⟨hinteger, hnumber, hboolean⟩ := h
  unfold storedForm
  rw [if_pos (Content.isNil_iff.2 rfl)]
  split
  · next hl => exact absurd hl hinteger
  · next hl => exact absurd hl hnumber
  · next hl => exact absurd hl hboolean
  · rfl

theorem eq_nil_of_storedForm_nil (h : storedForm names t f values .nil = .ok stored) :
    stored = .nil := by
  rw [storedForm_nil (storedForm_nil_isOk_iff.1 ⟨stored, h⟩)] at h
  exact (Except.ok.inj h).symm

/-- What a conditional field stores is checked as it is for the case that the selector chooses. -/
theorem storedForm_chosen (hf : f.WellFormed t) (hl : f.luaType = .conditional)
    (hv : values.Conform names t) (hc : c ≠ .nil)
    (h : storedForm names t f values c = .ok stored) :
    ∃ condition g n choice v w, f.condition = some condition ∧
      t.fields[condition.field]? = some g ∧ values.get g.name = .single (.integer n) ∧
      condition.case? n.toInt = some choice ∧ Represents choice.luaType choice.type ∧
      c = .single v ∧ stored = .single w ∧
      checkSingle names (t.place f) choice.luaType choice.type (.single v) = .ok w := by
  cases hcond : f.condition with
  | none => exact absurd hl (hf.luaType_ne hcond)
  | some condition =>
    obtain ⟨⟨g, hg⟩, hcases⟩ := hf.condition hcond
    obtain ⟨n, hn⟩ := hv.integerAt hg
    rw [storedForm_of_conditional hl hc, checkConditional_eq hcond hg.found hn, map_eq_ok_iff] at h
    obtain ⟨w, hw, rfl⟩ := h
    split at hw
    · cases hw
    · next choice hcase =>
      have hr := hcases choice (List.mem_of_find?_eq_some hcase)
      cases c with
      | single v =>
        exact ⟨condition, g, n, choice, v, w, rfl, hg.found, hn, hcase, hr, rfl, rfl, hw⟩
      | sequence items => exact absurd hw (checkSingle_sequence hr)

/-- What a field is set to is stored in the form that its representation asks for. -/
theorem storesAs_of_storedForm (hf : f.WellFormed t) (hv : values.Conform names t)
    (h : storedForm names t f values c = .ok stored) : f.StoresAs t values c stored := by
  by_cases hc : c = .nil
  · subst hc
    rw [eq_nil_of_storedForm_nil h]
    exact .nothing
  by_cases hl : f.luaType = .conditional
  · obtain ⟨condition, g, n, choice, v, w, hcond, hg, hn, hcase, hr, rfl, rfl, hw⟩ :=
      storedForm_chosen hf hl hv hc h
    exact .chosen hcond hg hn hcase (storedAs_of_checkSingle hr hw)
  · exact storesAs_of_checkField hf hl ((storedForm_eq_ok_iff hl hc).1 h).1

/-! ## Storing again -/

/-- What a field that is not conditional holds is stored as it is, if it is as long as the count
says. -/
theorem storedForm_of_holdsPlain (hf : f.WellFormed t) (hl : f.luaType ≠ .conditional)
    (h : f.HoldsPlain names c)
    (hcount : ∀ items, c = .sequence items → checkCount t f values items.length = .ok ()) :
    storedForm names t f values c = .ok c := by
  by_cases hc : c = .nil
  · subst hc
    exact storedForm_nil h.mayBeUnset
  · exact (storedForm_eq_ok_iff hl hc).2 ⟨checkField_of_holdsPlain hf hl h hc, hcount⟩

/-- A stored form is its own stored form. -/
theorem storedForm_storedForm (hf : f.WellFormed t) (hv : values.Conform names t)
    (h : storedForm names t f values c = .ok stored) :
    storedForm names t f values stored = .ok stored := by
  by_cases hc : c = .nil
  · subst hc
    obtain rfl := eq_nil_of_storedForm_nil h
    exact h
  by_cases hl : f.luaType = .conditional
  · obtain ⟨condition, g, n, choice, v, w, hcond, hg, hn, hcase, hr, rfl, rfl, hw⟩ :=
      storedForm_chosen hf hl hv hc h
    have hstored := (checkSingle_yields names (t.place f) hr (.single v)).of_ok hw
    by_cases hnil : Content.single w = .nil
    · rw [hnil]
      exact storedForm_nil (by rw [Field.MayBeUnset, hl]; decide)
    · rw [storedForm_of_conditional hl hnil, checkConditional_eq hcond hg hn, hcase]
      simp only [checkSingle_stored names (t.place f) hstored]
      rfl
  · obtain ⟨hcheck, hcount⟩ := (storedForm_eq_ok_iff hl hc).1 h
    have hholds := ((checkField_yields names hf hl c).of_ok hcheck).1
    exact storedForm_of_holdsPlain hf hl hholds hcount

section

variable (ht : t.WellFormed) (hv : values.Conform names t) {index : Nat}
  (hf : t.fields[index]? = some f)

include ht hv hf

/-- What a setter stored could be set again: the setter leaves the count and the selector of its
field. -/
theorem storedForm_setOrKept_self (h : storedForm names t f values c = .ok stored) :
    storedForm names t f (setOrKept names t index c values) stored = .ok stored := by
  have hmem := List.mem_of_getElem? hf
  have hself : ¬f.DependsOn index := by
    intro hd
    obtain ⟨g, hat⟩ := (ht.fields f hmem).integerAt_of_dependsOn hd
    cases hat.eq_of_found hf
    exact ht.name_ne_of_dependsOn hmem hd hat rfl
  rw [storedForm_setOrKept ht hv hf hmem hself]
  exact storedForm_storedForm (ht.fields f hmem) hv h

/-- Setting a field to what it holds changes nothing. -/
theorem get_of_setField_held
    (hheld : storedForm names t f values (values.get f.name) = .ok (values.get f.name)) :
    ∃ u, setField names t index values (values.get f.name) = .ok u ∧
      ∀ g ∈ t.fields, u.values.get g.name = values.get g.name := by
  obtain ⟨u, hu⟩ := (setField_isOk_iff hf _).2 ⟨_, hheld⟩
  obtain ⟨stored, hstored, hself, hothers⟩ := get_of_setField ht hv hf hu
  cases hheld.symm.trans hstored
  refine ⟨u, hu, fun g hg => ?_⟩
  by_cases hname : g.name = f.name
  · rw [hname, hself]
  · rw [hothers g hg hname]
    exact kept_of_same ht hv hf rfl hg

end

end

end RecordTables
