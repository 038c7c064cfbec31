import RecordTables.Proofs.Record.Passes
import RecordTables.Proofs.Record.Storing

/-!
Where a record asks for integers.

A field asks for integers of a scalar type with its one value, with the items of its sequence, or
with the value of a case that its selector chooses.  A value that is given there is taken for the
integer that it stands for (`integer_of_storedForm`), and this integer could as well have been given
(`storedForm_put`, `construct_put`).
-/

namespace RecordTables

/-! ## Places in a content -/

/-- The value at a place: the content itself, or an item of its sequence. -/
def Content.at? : Content → Option Nat → Option Value
  | .single v, none => some v
  | .sequence items, some k => items[k]?
  | _, _ => none

/-- The content with another value at a place that it has. -/
def Content.put : Content → Option Nat → Value → Content
  | .single _, none, w => .single w
  | .sequence items, some k, w => .sequence (items.set k w)
  | c, _, _ => c

/-- A field asks for an integer of a scalar type at a place of what it is set to. -/
inductive Field.AsksInteger (t : Table) (values : FieldValues) (f : Field) (s : ScalarType) :
    Option Nat → Prop
  | field (ha : f.arity = .one) (hl : f.luaType = .integer) (ht : f.type = some (.scalar s)) :
      f.AsksInteger t values s none
  | item (k : Nat) (ha : f.arity ≠ .one) (ht : f.type = some (.scalar s)) :
      f.AsksInteger t values s (some k)
  | chosen {condition : Condition} {g : Field} {n : Int64} {choice : Case}
      (hc : f.condition = some condition) (hg : t.fields[condition.field]? = some g)
      (hn : values.get g.name = .single (.integer n))
      (hcase : condition.case? n.toInt = some choice) (hl : choice.luaType = .integer)
      (ht : choice.type = .scalar s) : f.AsksInteger t values s none

theorem Content.at?_none {c : Content} {v : Value} (h : c.at? none = some v) : c = .single v := by
  cases c with
  | single w =>
    cases h
    rfl
  | sequence items => cases h

theorem Content.at?_some {c : Content} {k : Nat} {v : Value} (h : c.at? (some k) = some v) :
    ∃ items, c = .sequence items ∧ items[k]? = some v := by
  cases c with
  | single w => cases h
  | sequence items => exact ⟨items, rfl, h⟩

section

variable {names : RecordNames} {t : Table} {values values' : FieldValues} {f : Field}
  {s : ScalarType} {low high : Int} {p : Option Nat} {place : Place} {c stored : Content}
  {v w : Value} {n : Int64}

theorem Field.AsksInteger.of_condition_eq_none (h : f.AsksInteger t values s p)
    (hc : f.condition = none) : f.AsksInteger t values' s p := by
  cases h with
  | field ha hl ht => exact .field ha hl ht
  | item k ha ht => exact .item k ha ht
  | chosen hsome => cases hc.symm.trans hsome

theorem Value.StandsFor.ne_nil {m : Int} (h : v.StandsFor s m) : v ≠ .nil := by
  cases h <;> exact Value.noConfusion

/-! ## Values that stand for one integer -/

theorem checkInteger_congr (hv : v.StandsFor s n.toInt) (hw : w.StandsFor s n.toInt) :
    checkInteger place (.scalar s) (.single w) = checkInteger place (.scalar s) (.single v) := by
  unfold checkInteger
  rw [integer?_eq_some_iff.2 hv, integer?_eq_some_iff.2 hw]

/-- An integer check gives the integer that a value stands for. -/
theorem integer_of_checkInteger (hb : s.bounds? = some (low, high))
    (h : checkInteger place (.scalar s) (.single v) = .ok w) :
    ∃ n : Int64, w = .integer n ∧ v.StandsFor s n.toInt ∧ low ≤ n.toInt ∧ n.toInt ≤ high := by
  obtain ⟨n, hn, rfl⟩ := checkInteger_eq_ok h
  have hstored := (checkInteger_yields (fun _ => none) place hb (.single v)).of_ok h
  cases hstored with
  | integer hb' hlow hhigh =>
    cases hb.symm.trans hb'
    exact ⟨n, rfl, integer?_eq_some_iff.1 hn, hlow, hhigh⟩

theorem checkItem_integer (hb : s.bounds? = some (low, high)) (names : RecordNames)
    (place : Place) (v : Value) :
    checkItem names place (.scalar s) v = checkInteger place (.scalar s) (.single v) := by
  unfold checkItem checkSingle
  simp only [ScalarType.itemType_of_bounds hb]

theorem checkItems_set (hb : s.bounds? = some (low, high)) (hv : v.StandsFor s n.toInt)
    (hw : w.StandsFor s n.toInt) {items : List Value} {k : Nat} (hk : items[k]? = some v)
    (index : Nat) :
    checkItems names place (.scalar s) index (items.set k w) =
      checkItems names place (.scalar s) index items := by
  induction items generalizing k index with
  | nil => rfl
  | cons u items ih =>
    cases k with
    | zero =>
      cases hk
      rw [List.set_cons_zero, checkItems, checkItems, checkItem_integer hb, checkItem_integer hb,
        checkInteger_congr hv hw]
    | succ k => rw [List.set_cons_succ, checkItems, checkItems, ih hk]

/-- The item at an index is checked on its own. -/
theorem checkItem_of_checkItems {type : ValueType} {index k : Nat} {items out : List Value}
    (h : checkItems names place type index items = .ok out) (hk : items[k]? = some v) :
    ∃ w, out[k]? = some w ∧ checkItem names (place.at (index + k)) type v = .ok w := by
  induction items generalizing index k out with
  | nil => cases hk
  | cons u items ih =>
    rw [checkItems] at h
    obtain ⟨first, hfirst, h⟩ := bind_eq_ok_iff.1 h
    obtain ⟨rest, hrest, h⟩ := bind_eq_ok_iff.1 h
    cases h
    cases k with
    | zero =>
      cases hk
      exact ⟨first, rfl, hfirst⟩
    | succ k =>
      obtain ⟨w, hw, hcheck⟩ := ih hrest hk
      refine ⟨w, hw, ?_⟩
      rw [Nat.add_right_comm] at hcheck
      exact hcheck

/-! ## Fields -/

/-- A single value is checked as an integer wherever one is asked for. -/
theorem storedForm_single (hf : f.WellFormed t) (hasks : f.AsksInteger t values s none)
    (hne : v ≠ .nil) :
    storedForm names t f values (.single v) =
      (checkInteger (t.place f) (.scalar s) (.single v)).map .single := by
  have hnil : Content.single v ≠ .nil := fun heq => hne (Content.single.inj heq)
  cases hasks with
  | field ha hl ht =>
    have hplain : f.luaType ≠ .conditional := by
      rw [hl]
      decide
    have hcheck : checkSingle names (t.place f) .integer (.scalar s) (.single v) =
        checkInteger (t.place f) (.scalar s) (.single v) := rfl
    unfold storedForm
    rw [if_neg (mt Content.isNil_iff.1 hnil), if_neg hplain, checkField_of_one ha ht, hl, hcheck]
    cases checkInteger (t.place f) (.scalar s) (.single v) <;> rfl
  | chosen hc hg hn hcase hl ht =>
    rw [storedForm_of_conditional (hf.luaType_eq hc) hnil, checkConditional_eq hc hg hn]
    simp only [hcase, hl, ht]
    rfl

theorem checkField_put (hb : s.bounds? = some (low, high)) (hasks : f.AsksInteger t values s p)
    (hc : f.condition = none) (hat : c.at? p = some v) (hn : v.StandsFor s n.toInt) :
    checkField names t f (c.put p (.integer n)) = checkField names t f c := by
  cases hasks with
  | field ha hl ht =>
    obtain rfl := Content.at?_none hat
    rw [checkField_of_one ha ht, checkField_of_one ha ht, hl]
    exact congrArg (Except.map Content.single) (checkInteger_congr hn (.integer n))
  | item k ha ht =>
    obtain ⟨items, rfl, hk⟩ := Content.at?_some hat
    rw [checkField_of_sequence ha ht, checkField_of_sequence ha ht]
    show (checkSequence names _ _ _ (.sequence (items.set k (.integer n)))).map _ = _
    unfold checkSequence
    simp only [List.length_set, checkItems_set hb hn (.integer n) hk]
  | chosen hsome => cases hc.symm.trans hsome

theorem Content.ne_nil_of_at? (hat : c.at? p = some v) (hne : v ≠ .nil) : c ≠ .nil := by
  rintro rfl
  cases p with
  | none =>
    cases hat
    exact hne rfl
  | some k => cases hat

theorem isNil_put (hat : c.at? p = some v) (hne : v ≠ .nil) :
    (c.put p (.integer n)).isNil = c.isNil := by
  have hnil : ¬c.isNil = true := mt Content.isNil_iff.1 (Content.ne_nil_of_at? hat hne)
  rw [Bool.eq_false_iff.2 hnil]
  cases p with
  | none =>
    obtain rfl := Content.at?_none hat
    rfl
  | some k =>
    obtain ⟨items, rfl, _⟩ := Content.at?_some hat
    rfl

/-- A field is set to the integer that a value stands for as it is to the value. -/
theorem storedForm_put (hf : f.WellFormed t) (hb : s.bounds? = some (low, high))
    (hasks : f.AsksInteger t values s p)
    (hat : c.at? p = some v) (hn : v.StandsFor s n.toInt) :
    storedForm names t f values (c.put p (.integer n)) = storedForm names t f values c := by
  cases p with
  | none =>
    obtain rfl := Content.at?_none hat
    show storedForm names t f values (.single (.integer n)) = _
    rw [storedForm_single hf hasks Value.noConfusion, storedForm_single hf hasks hn.ne_nil,
      checkInteger_congr hn (.integer n)]
  | some k =>
    have hc : f.condition = none := by
      cases hasks with
      | item _ ha => exact (hf.of_sequence ha).2
    unfold storedForm
    rw [checkField_put hb hasks hc hat hn, isNil_put hat hn.ne_nil, if_neg (hf.luaType_ne hc),
      if_neg (hf.luaType_ne hc)]

/-- What is stored at a place for integers is the integer that was asked for. -/
theorem integer_of_storedForm (hf : f.WellFormed t) (hb : s.bounds? = some (low, high))
    (hasks : f.AsksInteger t values s p)
    (hat : c.at? p = some v) (hne : v ≠ .nil) (h : storedForm names t f values c = .ok stored) :
    ∃ n : Int64, v.StandsFor s n.toInt ∧ low ≤ n.toInt ∧ n.toInt ≤ high ∧
      stored.at? p = some (.integer n) := by
  cases p with
  | none =>
    obtain rfl := Content.at?_none hat
    rw [storedForm_single hf hasks hne, map_eq_ok_iff] at h
    obtain ⟨w, hw, rfl⟩ := h
    obtain ⟨n, rfl, hn, hlow, hhigh⟩ := integer_of_checkInteger hb hw
    exact ⟨n, hn, hlow, hhigh, rfl⟩
  | some k =>
    obtain ⟨items, rfl, hk⟩ := Content.at?_some hat
    cases hasks with
    | item _ ha ht =>
      have hplain := hf.luaType_ne (hf.of_sequence ha).2
      obtain ⟨hcheck, _⟩ := (storedForm_eq_ok_iff hplain Content.noConfusion).1 h
      rw [checkField_of_sequence ha ht, map_eq_ok_iff] at hcheck
      obtain ⟨out, hout, rfl⟩ := hcheck
      obtain ⟨_, heq, hitems⟩ := checkSequence_eq_ok hout
      cases heq
      obtain ⟨w, hw, hitem⟩ := checkItem_of_checkItems hitems hk
      rw [checkItem_integer hb] at hitem
      obtain ⟨n, rfl, hn, hlow, hhigh⟩ := integer_of_checkInteger hb hitem
      exact ⟨n, hn, hlow, hhigh, hw⟩

/-- A single value that stands for an integer of the type is always taken. -/
theorem storedForm_single_isOk (hf : f.WellFormed t) (hb : s.bounds? = some (low, high))
    (hasks : f.AsksInteger t values s none) {m : Int}
    (hm : v.StandsFor s m) (hlow : low ≤ m) (hhigh : m ≤ high) :
    ∃ stored, storedForm names t f values (.single v) = .ok stored := by
  have hsuits : v.Suits names .integer (.scalar s) := .integer hb hm hlow hhigh
  obtain ⟨w, hw⟩ : ∃ w, checkInteger (t.place f) (.scalar s) (.single v) = .ok w :=
    (checkInteger_isOk_iff hb).2 hsuits
  rw [storedForm_single hf hasks hm.ne_nil, hw]
  exact ⟨_, rfl⟩

end

/-! ## The constructor -/

section

variable {names : RecordNames} {t : Table} {args : List Content}

theorem argument_set {index : Nat} (c : Content) (h : argument args index ≠ .nil) (k : Nat) :
    argument (args.set index c) k = if k = index then c else argument args k := by
  have hlength : index < args.length := by
    by_contra hnot
    refine h ?_
    unfold argument
    rw [List.getD_eq_getElem?_getD, List.getElem?_eq_none (Nat.le_of_not_lt hnot)]
    rfl
  unfold argument
  rw [List.getD_eq_getElem?_getD, List.getElem?_set]
  by_cases hk : k = index
  · rw [if_pos hk.symm, if_pos hlength, if_pos hk]
    rfl
  · rw [if_neg (Ne.symm hk), if_neg hk, List.getD_eq_getElem?_getD]

/-- A record is made from the integer that an argument stands for as it is from the argument. -/
theorem construct_put {values : FieldValues} {s : ScalarType} {low high : Int} {p : Option Nat}
    {index : Nat} {f : Field} {v : Value} {n : Int64} (ht : t.WellFormed)
    (hf : t.fields[index]? = some f) (hb : s.bounds? = some (low, high))
    (hasks : f.AsksInteger t values s p) (hc : f.condition = none)
    (hat : (argument args index).at? p = some v) (hn : v.StandsFor s n.toInt) :
    construct names t (args.set index ((argument args index).put p (.integer n))) =
      construct names t args := by
  have hnil := isNil_put (n := n) hat hn.ne_nil
  have hne := Content.ne_nil_of_at? hat hn.ne_nil
  have hset := argument_set ((argument args index).put p (.integer n)) hne
  refine CheckedAlike.construct_eq ⟨fun k g hg hl => ?_, fun k g hg hl => ?_⟩ fun g _ k _ => ?_
  · rw [hset]
    split
    · next hk =>
      subst hk
      cases hf.symm.trans hg
      unfold initialContent
      rw [hnil, checkField_put hb hasks hc hat hn]
    · rfl
  · rw [hset, if_neg]
    rintro rfl
    cases hf.symm.trans hg
    exact (ht.fields f (List.mem_of_getElem? hf)).luaType_ne hc hl
  · rw [hset]
    split
    · next hk => rw [hk, hnil]
    · rfl

end

end RecordTables
