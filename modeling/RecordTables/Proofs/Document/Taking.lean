import RecordTables.Document.Reader
import RecordTables.Proofs.Outcome
import RecordTables.Proofs.Schema.Naming

/-!
When readers succeed.

`r.Takes tokens a rest` says that `r` reads `a` off the front of `tokens` and leaves `rest`.  Each
reader has one lemma that says when it takes what, and nothing below opens a reader again.  A reader
that stands behind an opening bracket or a comma has to leave a closing bracket alone, since the list
ends there, or the comma is one too many.
-/

namespace RecordTables
namespace Document

open Json (Token Numeral)

variable {α β μ : Type} {tokens rest : List Token}

/-- The reader reads `a` off the front of the tokens and leaves the rest. -/
def Reader.Takes (r : Reader α) (tokens : List Token) (a : α) (rest : List Token) : Prop :=
  ∃ h, r tokens = .ok (a, ⟨rest, h⟩)

/-- The reader takes nothing where a list closes. -/
def Reader.LeavesClosing (r : Reader α) : Prop :=
  ∀ {tokens a rest}, ¬r.Takes (.closeBracket :: tokens) a rest

/-! ## Single values -/

theorem Reader.map_takes_iff {r : Reader α} {f : α → β} {b : β} :
    (r.map f).Takes tokens b rest ↔ ∃ a, r.Takes tokens a rest ∧ f a = b := by
  constructor
  · rintro ⟨h, heq⟩
    obtain ⟨⟨a, r⟩, ha, heq⟩ := bind_eq_ok_iff.1 heq
    cases heq
    exact ⟨a, ⟨h, ha⟩, rfl⟩
  · rintro ⟨a, ⟨h, ha⟩, rfl⟩
    exact ⟨h, bind_eq_ok_iff.2 ⟨_, ha, rfl⟩⟩

theorem text_takes_iff {s : String} :
    Reader.Takes text tokens s rest ↔ tokens = .string s :: rest := by
  constructor
  · rintro ⟨h, heq⟩
    unfold text at heq
    split at heq <;> cases heq
    rfl
  · rintro rfl
    exact ⟨by simp, rfl⟩

theorem optional_takes_iff {r : Reader α} {o : Option α} :
    (optional r).Takes tokens o rest ↔
      tokens = .null :: rest ∧ o = none ∨
      (∀ more, tokens ≠ .null :: more) ∧ ∃ a, o = some a ∧ r.Takes tokens a rest := by
  constructor
  · rintro ⟨h, heq⟩
    unfold optional at heq
    split at heq
    · cases heq
      exact .inl ⟨rfl, rfl⟩
    · next hn =>
      obtain ⟨a, ha, rfl⟩ := Reader.map_takes_iff.1 ⟨h, heq⟩
      exact .inr ⟨hn, a, rfl, ha⟩
  · rintro (⟨rfl, rfl⟩ | ⟨hn, a, rfl, ha⟩)
    · exact ⟨by simp, rfl⟩
    · obtain ⟨h, heq⟩ := (Reader.map_takes_iff (f := some)).2 ⟨a, ha, rfl⟩
      refine ⟨h, ?_⟩
      unfold optional
      split
      · exact absurd rfl (hn _)
      · exact heq

theorem integer_takes_iff {n : Int} :
    Reader.Takes integer tokens n rest ↔
      (∃ k : Nat, tokens = .number (.natural k) :: rest ∧ k < 0x8000000000000000 ∧ n = k) ∨
      (∃ k : Nat, tokens = .number (.negative k) :: rest ∧ n = -(k : Int)) := by
  constructor
  · rintro ⟨h, heq⟩
    unfold integer at heq
    split at heq
    · split at heq <;> cases heq
      exact .inl ⟨_, rfl, ‹_›, rfl⟩
    · cases heq
      exact .inr ⟨_, rfl, rfl⟩
    · cases heq
  · rintro (⟨k, rfl, hk, rfl⟩ | ⟨k, rfl, rfl⟩)
    · exact ⟨by simp, by simp only [integer, if_pos hk]⟩
    · exact ⟨by simp, rfl⟩

theorem count_takes_iff {c : CountDecl} :
    Reader.Takes count tokens c rest ↔
      (∃ k, tokens = .number (.natural k) :: rest ∧ k < 0x100000000 ∧ c = .fixed k) ∨
      (∃ s, tokens = .string s :: rest ∧ c = .named s) := by
  constructor
  · rintro ⟨h, heq⟩
    unfold count at heq
    split at heq
    · cases heq
    · split at heq <;> cases heq
      exact .inl ⟨_, rfl, ‹_›, rfl⟩
    · cases heq
      exact .inr ⟨_, rfl, rfl⟩
    all_goals cases heq
  · rintro (⟨k, rfl, hk, rfl⟩ | ⟨s, rfl, rfl⟩)
    · exact ⟨by simp, by simp only [count, if_pos hk]⟩
    · exact ⟨by simp, rfl⟩

theorem ofName?_eq_some_iff {name : String} {t : LuaType} :
    LuaType.ofName? name = some t ↔ name = t.name := by
  have hnames : (LuaType.all.map LuaType.name).Nodup := by decide
  have hall : t ∈ LuaType.all := by cases t <;> decide
  rw [LuaType.ofName?, find?_key_eq_some_iff hnames]
  exact ⟨fun h => h.2.symm, fun h => ⟨hall, h.symm⟩⟩

theorem namedLuaType_eq_ok_iff {name : String} {t : LuaType} :
    namedLuaType name = .ok t ↔ name = t.name := by
  rw [← ofName?_eq_some_iff]
  unfold namedLuaType
  cases LuaType.ofName? name <;> simp

theorem emptyMember_eq_ok_iff :
    emptyMember tokens = .ok rest ↔ tokens = .colon :: .null :: .closeBrace :: rest := by
  constructor
  · intro h
    unfold emptyMember at h
    split at h <;> cases h
    rfl
  · rintro rfl
    rfl

theorem luaType_takes_iff {t : LuaType} :
    Reader.Takes luaType tokens t rest ↔
      tokens = .string t.name :: rest ∨
      tokens = .openBrace :: .string t.name :: .colon :: .null :: .closeBrace :: rest := by
  constructor
  · rintro ⟨h, heq⟩
    unfold luaType at heq
    split at heq
    · cases heq
    · obtain ⟨t', ht, heq⟩ := bind_eq_ok_iff.1 heq
      cases heq
      rw [namedLuaType_eq_ok_iff.1 ht]
      exact .inl rfl
    · obtain ⟨t', ht, heq⟩ := bind_eq_ok_iff.1 heq
      split at heq
      · cases heq
      · next he =>
        cases heq
        rw [namedLuaType_eq_ok_iff.1 ht, emptyMember_eq_ok_iff.1 he]
        exact .inr rfl
    all_goals cases heq
  · have named : namedLuaType t.name = .ok t := namedLuaType_eq_ok_iff.2 rfl
    rintro (rfl | rfl)
    · exact ⟨by simp, bind_eq_ok_iff.2 ⟨t, named, rfl⟩⟩
    · exact ⟨by simp only [List.length_cons]; omega, bind_eq_ok_iff.2 ⟨t, named, rfl⟩⟩

/-! ## Lists -/

theorem items_leavesClosing {r : Reader α} (hr : r.LeavesClosing) :
    Reader.LeavesClosing (items r) := by
  rintro tokens as rest ⟨h, heq⟩
  rw [items] at heq
  split at heq
  · cases heq
  · next ha => exact hr ⟨_, ha⟩

theorem items_takes_iff {r : Reader α} (hr : r.LeavesClosing) {as : List α} :
    Reader.Takes (items r) tokens as rest ↔ ∃ a next, r.Takes tokens a next ∧
      (next = .closeBracket :: rest ∧ as = [a] ∨
        ∃ more as', next = .comma :: more ∧ Reader.Takes (items r) more as' rest ∧
          as = a :: as') := by
  constructor
  · rintro ⟨h, heq⟩
    rw [items] at heq
    split at heq
    · cases heq
    · next a next hlt ha =>
      refine ⟨a, next, ⟨hlt, ha⟩, ?_⟩
      split at heq
      · cases heq
      · cases heq
        exact .inl ⟨rfl, rfl⟩
      · cases heq
      · cases heq
      · split at heq
        · cases heq
        · next hmore =>
          cases heq
          exact .inr ⟨_, _, rfl, ⟨_, hmore⟩, rfl⟩
      · cases heq
  · rintro ⟨a, next, ⟨hlt, ha⟩, ⟨rfl, rfl⟩ | ⟨more, as', rfl, hmore, rfl⟩⟩
    · refine ⟨by simp only [List.length_cons] at hlt; omega, ?_⟩
      rw [items, ha]
    · obtain ⟨hlt', heq⟩ := hmore
      refine ⟨by simp only [List.length_cons] at hlt; omega, ?_⟩
      rw [items, ha]
      cases more with
      | nil => simp at hlt'
      | cons token more =>
        cases token with
        | closeBracket => exact absurd ⟨hlt', heq⟩ (items_leavesClosing hr)
        | _ => simp only [heq]

theorem list_takes_iff {r : Reader α} (hr : r.LeavesClosing) {as : List α} :
    Reader.Takes (list r) tokens as rest ↔
      tokens = .openBracket :: .closeBracket :: rest ∧ as = [] ∨
      ∃ more, tokens = .openBracket :: more ∧ Reader.Takes (items r) more as rest := by
  constructor
  · rintro ⟨h, heq⟩
    unfold list at heq
    split at heq
    · cases heq
    · cases heq
      exact .inl ⟨rfl, rfl⟩
    · obtain ⟨⟨as', next⟩, has, heq⟩ := bind_eq_ok_iff.1 heq
      cases heq
      exact .inr ⟨_, rfl, ⟨_, has⟩⟩
    · cases heq
  · rintro (⟨rfl, rfl⟩ | ⟨more, rfl, hmore⟩)
    · exact ⟨by simp only [List.length_cons]; omega, rfl⟩
    · obtain ⟨hlt, heq⟩ := hmore
      refine ⟨Nat.lt_succ_of_lt hlt, ?_⟩
      cases more with
      | nil => simp at hlt
      | cons token more =>
        cases token with
        | closeBracket => exact absurd ⟨hlt, heq⟩ (items_leavesClosing hr)
        | _ => exact bind_eq_ok_iff.2 ⟨_, heq, rfl⟩

/-! ## Structures -/

namespace Shape

variable {shape : Shape μ α} {m m' : μ}

theorem object_takes_iff :
    Reader.Takes (shape.object m) tokens m' rest ↔ ∃ key more m₁ next,
      tokens = .string key :: .colon :: more ∧ key ∈ shape.members ∧ shape.has key m = false ∧
      Reader.Takes (shape.read key m) more m₁ next ∧
      (next = .closeBrace :: rest ∧ m' = m₁ ∨
        ∃ more', next = .comma :: more' ∧ Reader.Takes (shape.object m₁) more' m' rest) := by
  constructor
  · rintro ⟨h, heq⟩
    rw [object.eq_def] at heq
    split at heq
    · next key more =>
      rw [refuse_eq_ok_iff, refuse_eq_ok_iff, Decidable.not_not, Bool.not_eq_true] at heq
      obtain ⟨known, fresh, heq⟩ := heq
      split at heq
      · cases heq
      · next more =>
        split at heq
        · cases heq
        · next m₁ next hlt hread =>
          refine ⟨key, more, m₁, next, rfl, known, fresh, ⟨hlt, hread⟩, ?_⟩
          split at heq
          · cases heq
          · cases heq
            exact .inl ⟨rfl, rfl⟩
          · cases heq
          · cases heq
          · split at heq
            · cases heq
            · next hmore =>
              cases heq
              exact .inr ⟨_, rfl, ⟨_, hmore⟩⟩
          · cases heq
      · cases heq
    · cases heq
    · cases heq
  · rintro ⟨key, more, m₁, next, rfl, known, fresh, ⟨hlt, hread⟩,
      ⟨rfl, rfl⟩ | ⟨more', rfl, hlt', heq⟩⟩
    · refine ⟨by simp only [List.length_cons] at hlt ⊢; omega, ?_⟩
      rw [object]
      simp only [known, fresh, hread, not_true_eq_false, if_false, Bool.false_eq_true]
    · refine ⟨by simp only [List.length_cons] at hlt ⊢; omega, ?_⟩
      rw [object]
      simp only [known, fresh, hread, not_true_eq_false, if_false, Bool.false_eq_true]
      cases more' with
      | nil => simp at hlt'
      | cons token more' =>
        cases token with
        | closeBrace =>
          rw [object.eq_def] at heq
          cases heq
        | _ => simp only [heq]

theorem closing_eq_ok_iff : closing tokens = .ok rest ↔ tokens = .closeBracket :: rest := by
  constructor
  · intro h
    unfold closing at h
    split at h <;> cases h
    rfl
  · rintro rfl
    rfl

theorem row_nil_takes_iff {begun : Bool} :
    Reader.Takes (shape.row m begun []) tokens m' rest ↔
      tokens = .closeBracket :: rest ∧ m' = m := by
  constructor
  · rintro ⟨h, heq⟩
    unfold row at heq
    split at heq
    · cases heq
    · next hc =>
      cases heq
      exact ⟨closing_eq_ok_iff.1 hc, rfl⟩
  · rintro ⟨rfl, rfl⟩
    exact ⟨by simp, rfl⟩

theorem row_first_takes_iff {name : String} {names : List String}
    (hr : Reader.LeavesClosing (shape.read name m)) :
    Reader.Takes (shape.row m false (name :: names)) tokens m' rest ↔
      tokens = .closeBracket :: rest ∧ m' = m ∨
      ∃ m₁ next, Reader.Takes (shape.read name m) tokens m₁ next ∧
        Reader.Takes (shape.row m₁ true names) next m' rest := by
  constructor
  · rintro ⟨h, heq⟩
    cases tokens with
    | nil => cases heq
    | cons token tokens =>
      cases token with
      | closeBracket =>
        cases heq
        exact .inl ⟨rfl, rfl⟩
      | _ =>
        obtain ⟨⟨m₁, next⟩, hread, heq⟩ := bind_eq_ok_iff.1 heq
        obtain ⟨⟨m₂, last⟩, hrow, heq⟩ := bind_eq_ok_iff.1 heq
        cases heq
        exact .inr ⟨m₁, _, ⟨_, hread⟩, ⟨_, hrow⟩⟩
  · rintro (⟨rfl, rfl⟩ | ⟨m₁, next, ⟨hlt, hread⟩, hlt', hrow⟩)
    · exact ⟨by simp, rfl⟩
    · refine ⟨Nat.lt_trans hlt' hlt, ?_⟩
      cases tokens with
      | nil => simp at hlt
      | cons token tokens =>
        cases token with
        | closeBracket => exact absurd ⟨hlt, hread⟩ hr
        | _ => exact bind_eq_ok_iff.2 ⟨_, hread, bind_eq_ok_iff.2 ⟨_, hrow, rfl⟩⟩

theorem row_next_takes_iff {name : String} {names : List String}
    (hr : Reader.LeavesClosing (shape.read name m)) :
    Reader.Takes (shape.row m true (name :: names)) tokens m' rest ↔
      tokens = .closeBracket :: rest ∧ m' = m ∨
      ∃ more m₁ next, tokens = .comma :: more ∧ Reader.Takes (shape.read name m) more m₁ next ∧
        Reader.Takes (shape.row m₁ true names) next m' rest := by
  constructor
  · rintro ⟨h, heq⟩
    cases tokens with
    | nil => cases heq
    | cons token tokens =>
      cases token with
      | closeBracket =>
        cases heq
        exact .inl ⟨rfl, rfl⟩
      | comma =>
        have started : ∃ m₁ next, Reader.Takes (shape.read name m) tokens m₁ next ∧
            Reader.Takes (shape.row m₁ true names) next m' rest := by
          cases tokens with
          | nil => cases heq
          | cons token tokens =>
            cases token with
            | closeBracket => cases heq
            | _ =>
              obtain ⟨⟨m₁, next⟩, hread, heq⟩ := bind_eq_ok_iff.1 heq
              obtain ⟨⟨m₂, last⟩, hrow, heq⟩ := bind_eq_ok_iff.1 heq
              cases heq
              exact ⟨m₁, _, ⟨_, hread⟩, ⟨_, hrow⟩⟩
        obtain ⟨m₁, next, hread, hrow⟩ := started
        exact .inr ⟨_, m₁, next, rfl, hread, hrow⟩
      | _ => cases heq
  · rintro (⟨rfl, rfl⟩ | ⟨more, m₁, next, rfl, ⟨hlt, hread⟩, hlt', hrow⟩)
    · exact ⟨by simp, rfl⟩
    · refine ⟨Nat.lt_succ_of_lt (Nat.lt_trans hlt' hlt), ?_⟩
      cases more with
      | nil => simp at hlt
      | cons token more =>
        cases token with
        | closeBracket => exact absurd ⟨hlt, hread⟩ hr
        | _ => exact bind_eq_ok_iff.2 ⟨_, hread, bind_eq_ok_iff.2 ⟨_, hrow, rfl⟩⟩

theorem ofObject_eq_ok_iff {a : α} : shape.ofObject m = .ok a ↔ shape.finish m = .ok a := by
  unfold ofObject
  split <;> simp_all

theorem ofRow_eq_ok_iff {a : α} : shape.ofRow m = .ok a ↔ shape.finish m = .ok a := by
  unfold ofRow
  split <;> simp_all

theorem reader_takes_iff {a : α} :
    Reader.Takes shape.reader tokens a rest ↔ ∃ m, shape.finish m = .ok a ∧
      (tokens = .openBrace :: .closeBrace :: rest ∧ m = shape.none ∨
        (∃ more, tokens = .openBrace :: more ∧
          Reader.Takes (shape.object shape.none) more m rest) ∨
        ∃ more, tokens = .openBracket :: more ∧
          Reader.Takes (shape.row shape.none false shape.members) more m rest) := by
  constructor
  · rintro ⟨h, heq⟩
    unfold reader at heq
    split at heq
    · cases heq
    · obtain ⟨a', ha, heq⟩ := bind_eq_ok_iff.1 heq
      cases heq
      exact ⟨_, ofObject_eq_ok_iff.1 ha, .inl ⟨rfl, rfl⟩⟩
    · obtain ⟨⟨m, next⟩, hm, heq⟩ := bind_eq_ok_iff.1 heq
      obtain ⟨a', ha, heq⟩ := bind_eq_ok_iff.1 heq
      cases heq
      exact ⟨m, ofObject_eq_ok_iff.1 ha, .inr (.inl ⟨_, rfl, ⟨_, hm⟩⟩)⟩
    · obtain ⟨⟨m, next⟩, hm, heq⟩ := bind_eq_ok_iff.1 heq
      obtain ⟨a', ha, heq⟩ := bind_eq_ok_iff.1 heq
      cases heq
      exact ⟨m, ofRow_eq_ok_iff.1 ha, .inr (.inr ⟨_, rfl, ⟨_, hm⟩⟩)⟩
    · cases heq
  · rintro ⟨m, ha, ⟨rfl, rfl⟩ | ⟨more, rfl, hlt, hm⟩ | ⟨more, rfl, hlt, hm⟩⟩
    · exact ⟨by simp only [List.length_cons]; omega,
        bind_eq_ok_iff.2 ⟨a, ofObject_eq_ok_iff.2 ha, rfl⟩⟩
    · refine ⟨Nat.lt_succ_of_lt hlt, ?_⟩
      obtain ⟨key, more', -, -, rfl, -⟩ := object_takes_iff.1 ⟨hlt, hm⟩
      exact bind_eq_ok_iff.2 ⟨_, hm, bind_eq_ok_iff.2 ⟨a, ofObject_eq_ok_iff.2 ha, rfl⟩⟩
    · exact ⟨Nat.lt_succ_of_lt hlt,
        bind_eq_ok_iff.2 ⟨_, hm, bind_eq_ok_iff.2 ⟨a, ofRow_eq_ok_iff.2 ha, rfl⟩⟩⟩

end Shape
end Document
end RecordTables
