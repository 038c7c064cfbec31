import Mathlib.Data.List.Forall2

/-!
Outcomes of functions that may fail.

Each lemma says when a composed function succeeds, and with which result, or when it fails, and with
which error, in terms of its parts.
-/

namespace RecordTables

variable {ε α β : Type}

theorem bind_eq_ok_iff {x : Except ε α} {f : α → Except ε β} {b : β} :
    (x >>= f) = .ok b ↔ ∃ a, x = .ok a ∧ f a = .ok b := by
  cases x with
  | error e =>
    constructor
    · intro h
      cases h
    · intro h
      obtain ⟨a, ha, _⟩ := h
      cases ha
  | ok a =>
    constructor
    · intro h
      exact ⟨a, rfl, h⟩
    · intro h
      obtain ⟨a', ha, h⟩ := h
      cases ha
      exact h

theorem map_eq_ok_iff {x : Except ε α} {f : α → β} {b : β} :
    x.map f = .ok b ↔ ∃ a, x = .ok a ∧ f a = b := by
  cases x <;> simp [Except.map]

theorem mapError_eq_ok_iff {ε' : Type} {x : Except ε α} {f : ε → ε'} {a : α} :
    x.mapError f = .ok a ↔ x = .ok a := by
  cases x <;> simp [Except.mapError]

theorem isOk_iff {x : Except ε α} : x.isOk = true ↔ ∃ a, x = .ok a := by
  cases x <;> simp [Except.isOk, Except.toBool]

@[simp] theorem error_bind {e : ε} {f : α → Except ε β} :
    ((.error e : Except ε α) >>= f) = .error e := rfl

@[simp] theorem ok_bind {a : α} {f : α → Except ε β} :
    ((.ok a : Except ε α) >>= f) = f a := rfl

/-- A step that refuses under a condition succeeds exactly where the condition fails. -/
theorem refuse_eq_ok_iff {p : Prop} [Decidable p] {e : ε} {rest : Except ε α} {a : α} :
    (if p then .error e else rest) = .ok a ↔ ¬p ∧ rest = .ok a := by
  by_cases h : p
  · simp [h]
  · simp [h]

theorem mapM_eq_ok_iff {f : α → Except ε β} {l : List α} {out : List β} :
    l.mapM f = .ok out ↔ List.Forall₂ (fun a b => f a = .ok b) l out := by
  induction l generalizing out with
  | nil =>
    rw [List.mapM_nil, List.forall₂_nil_left_iff]
    exact ⟨fun h => by cases h; rfl, fun h => by rw [h]; rfl⟩
  | cons a l ih =>
    rw [List.mapM_cons, bind_eq_ok_iff, List.forall₂_cons_left_iff]
    constructor
    · intro h
      obtain ⟨b, hb, h⟩ := h
      obtain ⟨bs, hbs, h⟩ := bind_eq_ok_iff.1 h
      cases h
      exact ⟨b, bs, hb, ih.1 hbs, rfl⟩
    · intro h
      obtain ⟨b, bs, hb, hbs, rfl⟩ := h
      exact ⟨b, hb, bind_eq_ok_iff.2 ⟨bs, ih.2 hbs, rfl⟩⟩

/-! ## Errors -/

theorem bind_eq_error_iff {x : Except ε α} {f : α → Except ε β} {e : ε} :
    (x >>= f) = .error e ↔ x = .error e ∨ ∃ a, x = .ok a ∧ f a = .error e := by
  cases x with
  | error e' => simp
  | ok a => simp

theorem map_eq_error_iff {x : Except ε α} {f : α → β} {e : ε} :
    x.map f = .error e ↔ x = .error e := by
  cases x <;> simp [Except.map]

/-- A step that refuses under a condition fails with its own error there, and with that of the rest
elsewhere. -/
theorem refuse_eq_error_iff {p : Prop} [Decidable p] {e e' : ε} {rest : Except ε α} :
    (if p then .error e else rest) = .error e' ↔ p ∧ e = e' ∨ ¬p ∧ rest = .error e' := by
  by_cases h : p
  · simp [h]
  · simp [h]

/-- A list of steps fails at the first step that does. -/
theorem mapM_eq_error_iff {f : α → Except ε β} {l : List α} {e : ε} :
    l.mapM f = .error e ↔ ∃ before a after, l = before ++ a :: after ∧
      (∀ b ∈ before, ∃ c, f b = .ok c) ∧ f a = .error e := by
  induction l with
  | nil =>
    constructor
    · intro h
      cases h
    · rintro ⟨before, a, after, h, _⟩
      cases before <;> cases h
  | cons b l ih =>
    rw [List.mapM_cons, bind_eq_error_iff]
    constructor
    · rintro (h | ⟨c, hc, h⟩)
      · exact ⟨[], b, l, rfl, nofun, h⟩
      · obtain h | ⟨cs, _, h⟩ := bind_eq_error_iff.1 h
        · obtain ⟨before, a, after, rfl, hbefore, ha⟩ := ih.1 h
          refine ⟨b :: before, a, after, rfl, ?_, ha⟩
          rw [List.forall_mem_cons]
          exact ⟨⟨c, hc⟩, hbefore⟩
        · cases h
    · rintro ⟨before, a, after, h, hbefore, ha⟩
      cases before with
      | nil =>
        cases h
        exact Or.inl ha
      | cons b' before =>
        cases h
        rw [List.forall_mem_cons] at hbefore
        obtain ⟨c, hc⟩ := hbefore.1
        refine Or.inr ⟨c, hc, bind_eq_error_iff.2 (Or.inl (ih.2 ?_))⟩
        exact ⟨before, a, after, rfl, hbefore.2, ha⟩

/-! ## Outcomes beside a state -/

section

variable {σ : Type} {x : ExceptT ε (StateM σ) α} {f : α → ExceptT ε (StateM σ) β} {i j : σ}

theorem run_bind_ok {a : α} (h : x.run.run i = (.ok a, j)) :
    (x >>= f).run.run i = (f a).run.run j := by
  show (x.run.run i >>= fun p => (ExceptT.bindCont f p.1).run p.2) = _
  rw [h]
  rfl

theorem run_bind_error {e : ε} (h : x.run.run i = (.error e, j)) :
    (x >>= f).run.run i = (.error e, j) := by
  show (x.run.run i >>= fun p => (ExceptT.bindCont f p.1).run p.2) = _
  rw [h]
  rfl

theorem run_bind_eq_ok {b : β} {k : σ} (h : (x >>= f).run.run i = (.ok b, k)) :
    ∃ a j, x.run.run i = (.ok a, j) ∧ (f a).run.run j = (.ok b, k) := by
  cases hx : x.run.run i with
  | mk outcome j =>
    cases outcome with
    | ok a =>
      rw [run_bind_ok hx] at h
      exact ⟨a, j, rfl, h⟩
    | error e =>
      rw [run_bind_error hx] at h
      cases h

end

end RecordTables
