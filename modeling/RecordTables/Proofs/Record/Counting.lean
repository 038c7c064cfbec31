import RecordTables.Proofs.Record.Filling

/-!
How the second pass fills in counts.

`CountStep` says all that the pass may do at one field.  From it follows what becomes of a count that
is not known: it is filled in with the length of the first sequence that has this count, and left
alone where there is none (`get_of_fillCounts`).
-/

namespace RecordTables

/-! ## Lengths that stand for counts -/

/-- The length of a content, if it is a sequence for a field with that count. -/
def Field.countedLength? (count : Nat) (f : Field) (c : Content) : Option Nat :=
  match f.arity, c with
  | .counted index, .sequence items => if index = count then some items.length else none
  | _, _ => none

theorem findSome?_congr {α β : Type} {f g : α → Option β} {l : List α}
    (h : ∀ a ∈ l, f a = g a) : l.findSome? f = l.findSome? g := by
  induction l with
  | nil => rfl
  | cons a l ih =>
    rw [List.forall_mem_cons] at h
    rw [List.findSome?_cons, List.findSome?_cons, h.1, ih h.2]

section

variable {t : Table} {f g : Field} {count : Nat} {c : Content}

theorem countedLength?_of_sequence (ha : f.arity = .counted count) (items : List Value) :
    f.countedLength? count (.sequence items) = some items.length := by
  unfold Field.countedLength?
  rw [ha]
  exact if_pos rfl

theorem countedLength?_eq_none (h : ∀ items, f.arity = .counted count → c ≠ .sequence items) :
    f.countedLength? count c = none := by
  unfold Field.countedLength?
  split
  · next index items ha =>
    refine if_neg fun hindex => ?_
    rw [hindex] at ha
    exact h items ha rfl
  · rfl

/-- An integer field counts for no length. -/
theorem countedLength?_set (ht : t.WellFormed) {index : Nat} (hg : t.IntegerAt index g)
    (hf : f ∈ t.fields) (values : FieldValues) :
    f.countedLength? count (FieldValues.get (values.set g.name c) f.name) =
      f.countedLength? count (values.get f.name) := by
  by_cases ha : ∃ index', f.arity = .counted index'
  · obtain ⟨index', ha⟩ := ha
    have hne : f.luaType ≠ g.luaType := by
      rw [hg.luaType]
      exact (ht.fields f hf).ne_integer_of_counted ha
    rw [FieldValues.get_set_of_ne values (ht.name_ne hf hg.mem hne)]
  · rw [countedLength?_eq_none fun _ ha' => absurd ⟨_, ha'⟩ ha,
      countedLength?_eq_none fun _ ha' => absurd ⟨_, ha'⟩ ha]

end

/-! ## Steps of the second pass -/

/-- What the second pass does at a field: nothing, where there is no sequence with a count; it compares
the sequence with a count that is known; or it fills in the count. -/
inductive CountStep (names : RecordNames) (t : Table) (args : List Content) (f : Field)
    (derived : List Nat) (values : FieldValues) : List Nat → FieldValues → Prop
  | pass (h : ∀ index items, f.arity = .counted index → values.get f.name ≠ .sequence items) :
      CountStep names t args f derived values derived values
  | compare {index : Nat} {items : List Value} (ha : f.arity = .counted index)
      (hitems : values.get f.name = .sequence items) (hknown : Known args derived index)
      (hcount : checkCount t f values items.length = .ok ()) :
      CountStep names t args f derived values derived values
  | derive {index : Nat} {items : List Value} {g : Field} {stored : Content}
      (ha : f.arity = .counted index) (hitems : values.get f.name = .sequence items)
      (hunknown : ¬Known args derived index) (hg : t.IntegerAt index g)
      (hstored : checkField names t g (.single (.integer (Int64.ofNat items.length))) = .ok stored) :
      CountStep names t args f derived values (index :: derived) (values.set g.name stored)

section

variable {names : RecordNames} {t : Table} {args : List Content} {f g : Field}
  {fields : List Field} {derived : List Nat} {values second : FieldValues} {count : Nat}

theorem fillCounts_cons_eq_ok_iff (hf : f.WellFormed t) :
    fillCounts names t args (f :: fields) derived values = .ok second ↔
      ∃ derived' values', CountStep names t args f derived values derived' values' ∧
        fillCounts names t args fields derived' values' = .ok second := by
  rw [fillCounts]
  constructor
  · intro h
    split at h
    · next index items ha hitems =>
      obtain ⟨g, hg⟩ := hf.counter ha
      by_cases hknown : (!(argument args index).isNil) = true ∨ index ∈ derived
      · rw [if_pos hknown] at h
        split at h
        · cases h
        · next hcount => exact ⟨_, _, .compare ha hitems hknown hcount, h⟩
      · rw [if_neg hknown, hg.fieldAt] at h
        simp only at h
        split at h
        · cases h
        · next stored hstored => exact ⟨_, _, .derive ha hitems hknown hg hstored, h⟩
    · next hnot => exact ⟨_, _, .pass hnot, h⟩
  · intro h
    obtain ⟨derived', values', hstep, h⟩ := h
    cases hstep with
    | pass hnot =>
      split
      · next index items ha hitems => exact absurd hitems (hnot index items ha)
      · exact h
    | compare ha hitems hknown hcount =>
      simp only [ha, hitems, hcount]
      exact (if_pos hknown).trans h
    | derive ha hitems hunknown hg hstored =>
      simp only [ha, hitems, hg.fieldAt, hstored]
      exact (if_neg hunknown).trans h

theorem CountStep.pending {derived' : List Nat} {values' : FieldValues} (ht : t.WellFormed)
    (hv : values.Pending names t) (h : CountStep names t args f derived values derived' values') :
    values'.Pending names t := by
  cases h with
  | pass => exact hv
  | compare => exact hv
  | derive _ _ _ hg hstored =>
    have hholds := (checkField_yields names (ht.fields _ hg.mem) hg.plain _).of_ok hstored
    exact hv.set_integer ht hg hholds.1

/-- The second pass fills in a count that is not known with the length of the first sequence that has
this count, and leaves a count that no sequence has. -/
theorem get_of_fillCounts (ht : t.WellFormed) (hg : t.IntegerAt count g)
    (hfields : ∀ f ∈ fields, f ∈ t.fields) (hv : values.Pending names t)
    (hunknown : ¬Known args derived count)
    (h : fillCounts names t args fields derived values = .ok second) :
    match fields.findSome? fun f => f.countedLength? count (values.get f.name) with
    | some length =>
      checkField names t g (.single (.integer (Int64.ofNat length))) = .ok (second.get g.name)
    | none => second.get g.name = values.get g.name := by
  induction fields generalizing derived values with
  | nil =>
    cases h
    rfl
  | cons f fields ih =>
    rw [List.forall_mem_cons] at hfields
    obtain ⟨hf, hfields⟩ := hfields
    obtain ⟨derived', values', hstep, h⟩ := (fillCounts_cons_eq_ok_iff (ht.fields f hf)).1 h
    have hv' := hstep.pending ht hv
    rw [List.findSome?_cons]
    cases hstep with
    | pass hnot =>
      rw [countedLength?_eq_none fun items ha => hnot count items ha]
      exact ih hfields hv hunknown h
    | @compare index items ha _ hknown =>
      have hindex : index ≠ count := fun heq => hunknown (heq ▸ hknown)
      rw [countedLength?_eq_none fun _ ha' => absurd (Arity.counted.inj (ha.symm.trans ha')) hindex]
      exact ih hfields hv hunknown h
    | @derive index items counter stored ha hitems _ hcounter hstored =>
      by_cases hindex : index = count
      · -- the count is filled in here, and known from here on
        subst hindex
        have hsame := hcounter.eq_of_found hg.found
        subst hsame
        have hfilled := (fillCounts_yields names ht args hfields _ hv').of_ok h
        rw [hitems, countedLength?_of_sequence ha]
        show checkField names t g _ = .ok (second.get g.name)
        rw [hfilled.known index g hg.found (Or.inr List.mem_cons_self), FieldValues.get_set_self]
        exact hstored
      · have hstill : ¬Known args (index :: derived) count := by
          intro hknown
          refine hunknown (hknown.imp id fun hmem => ?_)
          exact (List.mem_cons.1 hmem).resolve_left fun heq => hindex heq.symm
        have hname : g.name ≠ counter.name :=
          fun hname => hindex (ht.index_eq hcounter.found hg.found hname.symm)
        have hrest := ih hfields hv' hstill h
        rw [findSome?_congr fun f' hf' => countedLength?_set ht hcounter (hfields f' hf') values,
          FieldValues.get_set_of_ne values hname] at hrest
        rw [countedLength?_eq_none
          fun _ ha' => absurd (Arity.counted.inj (ha.symm.trans ha')) hindex]
        exact hrest

end

end RecordTables
