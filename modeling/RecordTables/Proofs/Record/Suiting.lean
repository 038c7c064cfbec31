import RecordTables.Proofs.Number.Exact
import RecordTables.Proofs.Record.Conforming

/-!
Values that suit a type.

`Value.Suits` and `Value.SuitsItem` say which values a field of a type takes, in terms of the values
alone: what integer a value stands for, of what type of Lua it is, to which table a record belongs.
The checks take just these (`checkSingle_isOk_iff`, `checkSequence_isOk_iff`).  Where an item of a
sequence does not suit, the refusal names the place of the first such item.
-/

namespace RecordTables

/-! ## Values that suit a type -/

/-- The integer that a value stands for where a scalar type asks for one. -/
inductive Value.StandsFor (s : ScalarType) : Value → Int → Prop
  | integer (i : Int64) : StandsFor s (.integer i) i.toInt
  | float {x : Binary64} {n : Int} (hx : x.value? = some (n : ℚ)) : StandsFor s (.float x) n
  | boolean (hs : s = .bool) (b : Bool) : StandsFor s (.boolean b) (if b then 1 else 0)

/-- A value that a single field of a type takes. -/
inductive Value.Suits (names : RecordNames) : LuaType → ValueType → Value → Prop
  | integer {s : ScalarType} {low high n : Int} {v : Value} (hb : s.bounds? = some (low, high))
      (hn : v.StandsFor s n) (hl : low ≤ n) (hh : n ≤ high) : Suits names .integer (.scalar s) v
  | ofInteger (type : ValueType) (i : Int64) : Suits names .number type (.integer i)
  | ofFloat (type : ValueType) (x : Binary64) : Suits names .number type (.float x)
  | string (type : ValueType) (bytes : List UInt8) : Suits names .string type (.string bytes)
  | boolean (type : ValueType) (b : Bool) : Suits names .boolean type (.boolean b)
  | light (type : ValueType) (address : Nat) : Suits names .lightUserData type (.light address)
  | record {name : String} {r : RecordRef} (h : names r = some name) :
      Suits names .table (.table name) (.record r)

/-- A value that a sequence of a type takes as an item. -/
inductive Value.SuitsItem (names : RecordNames) : ValueType → Value → Prop
  | number {s : ScalarType} {v : Value} (hs : s = .float ∨ s = .double)
      (h : v.Suits names .number (.scalar s)) : SuitsItem names (.scalar s) v
  | string {v : Value} (h : v.Suits names .string (.scalar .string)) :
      SuitsItem names (.scalar .string) v
  | integer {s : ScalarType} {v : Value} (h : v.Suits names .integer (.scalar s)) :
      SuitsItem names (.scalar s) v
  | record {name : String} {v : Value} (h : v.Suits names .table (.table name)) :
      SuitsItem names (.table name) v

/-! ## Single values -/

section

variable {names : RecordNames} {place : Place} {s : ScalarType} {luaType : LuaType}
  {type : ValueType} {v : Value}

theorem Value.Suits.ne_nil (h : v.Suits names luaType type) : v ≠ .nil := by
  cases h with
  | integer hb hn =>
    cases hn <;> exact Value.noConfusion
  | _ => exact Value.noConfusion

/-- Every integer of a scalar type is one of Lua's. -/
theorem ScalarType.bounds_within {low high : Int} (hb : s.bounds? = some (low, high)) :
    -0x8000000000000000 ≤ low ∧ high < 0x8000000000000000 := by
  cases s <;> cases hb <;> decide

/-- The items of a sequence of such a type are integers of Lua. -/
theorem ScalarType.itemType_of_bounds {low high : Int} (hb : s.bounds? = some (low, high)) :
    s.itemType = .integer := by
  cases s <;> cases hb <;> rfl

theorem integer?_eq_some_iff {i : Int64} :
    (Content.single v).integer? (ValueType.scalar s = .scalar .bool) = some i ↔
      v.StandsFor s i.toInt := by
  cases v with
  | integer j =>
    show some j = some i ↔ _
    constructor
    · intro h
      cases h
      exact .integer i
    · intro h
      generalize hn : i.toInt = n at h
      cases h
      rw [Int64.toInt_inj.1 hn]
  | float x =>
    show Value.castInteger? x = some i ↔ _
    rw [Value.castInteger?_eq_some_iff]
    exact ⟨.float, fun h => by cases h; assumption⟩
  | boolean b =>
    simp only [Content.integer?, decide_eq_true_eq, ValueType.scalar.injEq]
    constructor
    · intro h
      by_cases hs : s = .bool
      · rw [if_pos hs] at h
        cases h
        cases b
        · exact .boolean hs false
        · exact .boolean hs true
      · rw [if_neg hs] at h
        cases h
    · intro h
      generalize hn : i.toInt = n at h
      cases h with
      | boolean hs =>
        rw [if_pos hs, Option.some.injEq]
        apply Int64.toInt_inj.1
        rw [hn]
        cases b <;> rfl
  | _ =>
    constructor
    · intro h
      cases h
    · intro h
      cases h

theorem checkInteger_isOk_iff {low high : Int} (hb : s.bounds? = some (low, high)) :
    (∃ w, checkInteger place (.scalar s) (.single v) = .ok w) ↔
      v.Suits names .integer (.scalar s) := by
  have hbounds : (ValueType.scalar s).bounds? = some (low, high) := hb
  unfold checkInteger
  constructor
  · intro h
    obtain ⟨w, h⟩ := h
    split at h
    · cases h
    · next i hi =>
      simp only [hbounds, refuse_eq_ok_iff] at h
      obtain ⟨hrange, _⟩ := h
      exact .integer hb (integer?_eq_some_iff.1 hi) (by omega) (by omega)
  · intro h
    cases h with
    | @integer _ low' high' n _ hb' hn hl hh =>
      rw [hb] at hb'
      cases hb'
      have hwithin := ScalarType.bounds_within hb
      obtain ⟨i, rfl⟩ : ∃ i : Int64, i.toInt = n :=
        ⟨Int64.ofInt n, Int64.toInt_ofInt_of_le (by omega) (by omega)⟩
      have hrange : ¬(i.toInt < low ∨ high < i.toInt) := by omega
      simp only [integer?_eq_some_iff.2 hn, hbounds, if_neg hrange]
      exact ⟨_, rfl⟩

theorem checkRecord_isOk_iff {name : String} :
    (∃ w, checkRecord names place name (.single v) = .ok w) ↔
      v.Suits names .table (.table name) := by
  unfold checkRecord
  constructor
  · intro h
    obtain ⟨w, h⟩ := h
    split at h
    · next r hr =>
      cases hr
      split at h
      · next found hfound =>
        by_cases hname : found = name
        · exact .record (hname ▸ hfound)
        · rw [if_neg hname] at h
          cases h
      · cases h
    · cases h
  · intro h
    cases h with
    | record hr =>
      simp only [hr, if_true]
      exact ⟨_, rfl⟩

theorem checkRecord_eq_ok {name : String} {w : Value}
    (h : checkRecord names place name (.single v) = .ok w) : w = v := by
  unfold checkRecord at h
  split at h
  · next r hr =>
    cases hr
    split at h
    · next found _ =>
      by_cases hname : found = name
      · rw [if_pos hname] at h
        cases h
        rfl
      · rw [if_neg hname] at h
        cases h
    · cases h
  · cases h

/-- A check takes just the values that suit the type. -/
theorem checkSingle_isOk_iff (hr : Represents luaType type) (hv : v ≠ .nil) :
    (∃ w, checkSingle names place luaType type (.single v) = .ok w) ↔
      v.Suits names luaType type := by
  cases hr with
  | integer hb => exact checkInteger_isOk_iff hb
  | table name => exact checkRecord_isOk_iff
  | number =>
    constructor
    · intro h
      obtain ⟨w, h⟩ := h
      cases v with
      | integer i => exact .ofInteger _ i
      | float x => exact .ofFloat _ x
      | _ => cases h
    · intro h
      cases h with
      | ofInteger => exact ⟨_, rfl⟩
      | ofFloat => exact ⟨_, rfl⟩
  | string =>
    constructor
    · intro h
      obtain ⟨w, h⟩ := h
      cases v with
      | string bytes => exact .string _ bytes
      | _ => cases h
    · intro h
      cases h with
      | string => exact ⟨_, rfl⟩
  | boolean =>
    constructor
    · intro h
      obtain ⟨w, h⟩ := h
      cases v with
      | boolean b => exact .boolean _ b
      | _ => cases h
    · intro h
      cases h with
      | boolean => exact ⟨_, rfl⟩
  | lightUserData =>
    constructor
    · intro h
      obtain ⟨w, h⟩ := h
      cases v with
      | light address => exact .light _ address
      | nil => exact absurd rfl hv
      | _ => cases h
    · intro h
      cases h with
      | light => exact ⟨_, rfl⟩

theorem checkSingle_sequence (hr : Represents luaType type) {items : List Value} {w : Value} :
    checkSingle names place luaType type (.sequence items) ≠ .ok w := by
  intro h
  cases hr <;> cases h

end

/-! ## Items -/

section

variable {names : RecordNames} {type : ValueType}

theorem suitsItem_scalar_iff {s : ScalarType} {v : Value} :
    v.SuitsItem names (.scalar s) ↔ v.Suits names s.itemType (.scalar s) := by
  constructor
  · intro h
    cases h with
    | number hs h =>
      rcases hs with rfl | rfl
      · exact h
      · exact h
    | string h => exact h
    | integer h =>
      cases h with
      | integer hb hn hl hh =>
        rw [ScalarType.itemType_of_bounds hb]
        exact .integer hb hn hl hh
  · intro h
    cases s with
    | float => exact .number (.inl rfl) h
    | double => exact .number (.inr rfl) h
    | string => exact .string h
    | _ => exact .integer h

theorem checkItem_isOk_iff (place : Place) (hknown : ∀ name, type ≠ .foreign name) {v : Value} :
    (∃ w, checkItem names place type v = .ok w) ↔ v.SuitsItem names type := by
  cases type with
  | scalar s =>
    rw [suitsItem_scalar_iff]
    by_cases hv : v = .nil
    · subst hv
      constructor
      · intro h
        obtain ⟨w, h⟩ := h
        cases s <;> cases h
      · intro h
        exact absurd rfl h.ne_nil
    · exact checkSingle_isOk_iff (represents_itemType s) hv
  | table name =>
    refine checkRecord_isOk_iff.trans ⟨.record, fun h => ?_⟩
    cases h with
    | record h => exact h
  | foreign name => exact absurd rfl (hknown name)

theorem checkItems_isOk_iff (place : Place) (index : Nat)
    (hknown : ∀ name, type ≠ .foreign name) {items : List Value} :
    (∃ out, checkItems names place type index items = .ok out) ↔
      ∀ v ∈ items, v.SuitsItem names type := by
  induction items generalizing index with
  | nil => exact ⟨fun _ _ hv => absurd hv List.not_mem_nil, fun _ => ⟨_, rfl⟩⟩
  | cons v items ih =>
    rw [List.forall_mem_cons, ← checkItem_isOk_iff (place.at index) hknown, ← ih (index + 1),
      checkItems]
    constructor
    · intro h
      obtain ⟨out, h⟩ := h
      obtain ⟨w, hw, h⟩ := bind_eq_ok_iff.1 h
      obtain ⟨rest, hrest, _⟩ := bind_eq_ok_iff.1 h
      exact ⟨⟨w, hw⟩, rest, hrest⟩
    · intro h
      obtain ⟨⟨w, hw⟩, rest, hrest⟩ := h
      exact ⟨w :: rest, bind_eq_ok_iff.2 ⟨w, hw, bind_eq_ok_iff.2 ⟨rest, hrest, rfl⟩⟩⟩

theorem checkSequence_isOk_iff {place : Place} {arity : Arity} {type : ValueType}
    (hknown : ∀ name, type ≠ .foreign name) {items : List Value} :
    (∃ out, checkSequence names place arity type (.sequence items) = .ok out) ↔
      (∀ n, arity = .fixed n → items.length = n) ∧ ∀ v ∈ items, v.SuitsItem names type := by
  rw [← checkItems_isOk_iff place 1 hknown]
  cases arity with
  | fixed n =>
    show (∃ out, (if items.length = n then checkItems names place type 1 items
      else .error (.wrongLength place n items.length)) = .ok out) ↔ _
    by_cases hn : items.length = n
    · rw [if_pos hn]
      refine ⟨fun h => ⟨fun m hm => ?_, h⟩, And.right⟩
      cases hm
      exact hn
    · rw [if_neg hn]
      refine ⟨fun h => ?_, fun h => absurd (h.1 n rfl) hn⟩
      obtain ⟨out, h⟩ := h
      cases h
  | _ => exact ⟨fun h => ⟨nofun, h⟩, And.right⟩

end

/-! ## The first item that does not suit -/

/-- The refusals of a value that does not suit a type. -/
inductive Refusal.OfValue (place : Place) : Refusal → Prop
  | wrongType (expected found : String) : OfValue place (.wrongType place expected found)
  | outOfRange (n : Int) (type : String) : OfValue place (.outOfRange place n type)

/-- The wording of such a refusal begins with the place of the value. -/
theorem Refusal.OfValue.toLuaError {place : Place} {refusal : Refusal}
    (h : refusal.OfValue place) :
    ∃ rest, refusal.toLuaError = .runtime (place.text ++ ": " ++ rest) := by
  cases h with
  | wrongType expected found =>
    have hcolon : ": expected " = ": " ++ "expected " := rfl
    refine ⟨"expected " ++ expected ++ ", got " ++ found, ?_⟩
    show LuaError.runtime (place.text ++ ": expected " ++ expected ++ ", got " ++ found) = _
    simp only [hcolon, String.append_assoc]
  | outOfRange n type =>
    refine ⟨toString n ++ " is out of range for " ++ type, ?_⟩
    show LuaError.runtime (place.text ++ ": " ++ toString n ++ " is out of range for " ++ type) = _
    simp only [String.append_assoc]

section

variable {names : RecordNames} {place : Place} {type : ValueType} {refusal : Refusal}

theorem Refusal.OfValue.of_refuse {α : Type} {expected : String} {c : Content}
    (h : place.refuse (α := α) expected c = .error refusal) : refusal.OfValue place := by
  cases h
  exact .wrongType _ _

theorem checkRecord_eq_error {name : String} {c : Content}
    (h : checkRecord names place name c = .error refusal) : refusal.OfValue place := by
  unfold checkRecord at h
  split at h
  · split at h
    · next found _ =>
      by_cases hname : found = name
      · rw [if_pos hname] at h
        cases h
      · rw [if_neg hname] at h
        cases h
        exact .wrongType _ _
    · exact .of_refuse h
  · exact .of_refuse h

theorem checkInteger_eq_error {c : Content} (h : checkInteger place type c = .error refusal) :
    refusal.OfValue place := by
  unfold checkInteger at h
  split at h
  · exact .of_refuse h
  · split at h
    · cases h
    · next low high _ =>
      split at h
      · cases h
        exact .outOfRange _ _
      · cases h

theorem checkItem_eq_error (hknown : ∀ name, type ≠ .foreign name) {v : Value}
    (h : checkItem names place type v = .error refusal) : refusal.OfValue place := by
  cases type with
  | table name => exact checkRecord_eq_error h
  | foreign name => exact absurd rfl (hknown name)
  | scalar s =>
    have hnumber : s.itemType = .number ∨ s.itemType = .string ∨ s.itemType = .integer := by
      cases s <;> decide
    unfold checkItem checkSingle at h
    rcases hnumber with hs | hs | hs
    · simp only [hs] at h
      split at h
      · cases h
      · cases h
      · exact .of_refuse h
    · simp only [hs] at h
      split at h
      · cases h
      · exact .of_refuse h
    · simp only [hs] at h
      exact checkInteger_eq_error h

/-- The items before the first that does not suit go through, and the check ends with the refusal of
this item at its place. -/
theorem checkItems_eq_error (place : Place) (hknown : ∀ name, type ≠ .foreign name) (index : Nat)
    {before after : List Value} {w : Value} (hbefore : ∀ v ∈ before, v.SuitsItem names type)
    (hw : ¬w.SuitsItem names type) :
    ∃ refusal, checkItems names place type index (before ++ w :: after) = .error refusal ∧
      refusal.OfValue (place.at (index + before.length)) := by
  induction before generalizing index with
  | nil =>
    rw [List.nil_append, checkItems, List.length_nil, Nat.add_zero]
    cases hx : checkItem names (place.at index) type w with
    | ok v => exact absurd ((checkItem_isOk_iff _ hknown).1 ⟨v, hx⟩) hw
    | error refusal => exact ⟨refusal, rfl, checkItem_eq_error hknown hx⟩
  | cons v before ih =>
    rw [List.forall_mem_cons] at hbefore
    obtain ⟨out, hv⟩ := (checkItem_isOk_iff (place.at index) hknown).2 hbefore.1
    obtain ⟨refusal, hrest, hplace⟩ := ih (index + 1) hbefore.2
    have hlength : index + (v :: before).length = index + 1 + before.length := by
      rw [List.length_cons]
      omega
    refine ⟨refusal, ?_, hlength ▸ hplace⟩
    rw [List.cons_append, checkItems, hv, ok_bind, hrest]
    rfl

end

end RecordTables
