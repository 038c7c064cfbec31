import RecordTables.Proofs.Record.Settling

/-!
Setting the fields of a record one by one.

A run of setters that comes to counts and selectors before the fields that depend on them ends with
contents that settle its arguments, and it ends well if these can be settled at all.  `SettledBut`
is what each of the setters keeps.
-/

namespace RecordTables

/-! ## Setters in turn -/

/-- Sets the fields at indices in order, each to its argument. -/
def setEach (names : RecordNames) (t : Table) (args : List Content) :
    List Nat → FieldValues → Except Refusal FieldValues
  | [], values => .ok values
  | index :: order, values => do
    let u ← setField names t index values (argument args index)
    setEach names t args order u.values

/-- Fields that have an argument, each of them once, and each stage before the next one. -/
structure InTurn (t : Table) (args : List Content) (order : List Nat) : Prop where
  nodup : order.Nodup
  given : ∀ index ∈ order, index < t.fields.length ∧ argument args index ≠ .nil
  stages : order.Pairwise fun a b => ∀ f g, t.fields[a]? = some f → t.fields[b]? = some g →
    f.stage ≤ g.stage

/-- Contents while setters are still to be run for the fields that are `left`. -/
structure SettledBut (names : RecordNames) (t : Table) (args : List Content) (left : List Nat)
    (values : FieldValues) : Prop where
  unset : ∀ index ∈ left, ∀ f, t.fields[index]? = some f → values.get f.name = f.default
  done : ∀ (index : Nat) (f : Field), t.fields[index]? = some f → index ∉ left →
    f.Settled names t values (argument args index) (values.get f.name)
  stages : ∀ index f, t.fields[index]? = some f → index ∉ left → argument args index ≠ .nil →
    ∀ later ∈ left, ∀ g, t.fields[later]? = some g → f.stage ≤ g.stage

section

variable {names : RecordNames} {t : Table} {args : List Content} {values out : FieldValues}
  {index : Nat} {f : Field} {c stored : Content}

theorem Field.kept_nil (selector : Option Int) :
    f.kept names t index selector .nil = .nil := by
  unfold Field.kept
  split
  · rfl
  · split <;> rfl

theorem setField_eq_error (hf : t.fields[index]? = some f) {refusal : Refusal}
    (hx : storedForm names t f values c = .error refusal) :
    setField names t index values c = .error refusal := by
  unfold setField Table.fieldAt
  simp only [hf, hx]

/-- Setting a field changes no other field, as long as the conditional fields that it rules hold
nothing. -/
theorem setField_eq_ok (ht : t.WellFormed) (hf : t.fields[index]? = some f)
    (hquiet : ∀ g ∈ t.fields, ∀ condition, g.condition = some condition →
      condition.field = index → values.get g.name = .nil)
    (hx : storedForm names t f values c = .ok stored) :
    ∃ u, setField names t index values c = .ok u ∧
      ∀ g ∈ t.fields, u.values.get g.name = (values.set f.name stored).get g.name := by
  unfold setField Table.fieldAt
  simp only [hf, hx]
  by_cases hsame : sameInteger (values.get f.name) stored = true
  · rw [if_pos hsame]
    exact ⟨_, rfl, fun _ _ => rfl⟩
  · rw [if_neg hsame]
    refine ⟨_, rfl, fun g hg => ?_⟩
    rw [(get_clearStale names t index stored.plainInteger? ht.names _).1 g hg]
    cases hc : g.condition with
    | none => exact g.kept_of_none hc _
    | some condition =>
      by_cases hindex : condition.field = index
      · have hd : g.DependsOn index := .inr ⟨condition, hc, hindex⟩
        obtain ⟨k, hk⟩ := (ht.fields g hg).integerAt_of_dependsOn hd
        have hname := ht.name_ne_of_dependsOn hg hd hk
        rw [← hk.eq_of_found hf] at hname
        rw [FieldValues.get_set_of_ne values hname.symm, hquiet g hg condition hc hindex]
        exact Field.kept_nil _
      · exact Field.kept_of_ne hc hindex _

/-- A field that has been set depends on none that is still to be set. -/
theorem SettledBut.not_dependsOn {left : List Nat} (ht : t.WellFormed)
    (hv : SettledBut names t args left values) (hindex : index ∈ left)
    (hf : t.fields[index]? = some f) {other : Nat} {g : Field} (hg : t.fields[other]? = some g)
    (hother : other ∉ left) (harg : argument args other ≠ .nil) : ¬g.DependsOn index := by
  intro hd
  have hmem := List.mem_of_getElem? hg
  obtain ⟨k, hk⟩ := (ht.fields g hmem).integerAt_of_dependsOn hd
  have hle := hv.stages other g hg hother harg index hindex f hf
  have hpos := (ht.fields g hmem).stage_pos hd
  rw [hk.eq_of_found hf, hk.stage] at hle
  omega

/-- Where the conditional fields that the next field rules are still to be set, they hold nothing. -/
theorem SettledBut.quiet {left : List Nat} (ht : t.WellFormed)
    (hv : SettledBut names t args (index :: left) values) (hf : t.fields[index]? = some f) {g : Field}
    (hg : g ∈ t.fields) {condition : Condition} (hc : g.condition = some condition)
    (hindex : condition.field = index) : values.get g.name = .nil := by
  have hl := (ht.fields g hg).luaType_eq hc
  have hdefault : g.default = .nil := Field.default_eq_nil (by simp [Field.MayBeUnset, hl])
  have hd : g.DependsOn index := .inr ⟨condition, hc, hindex⟩
  obtain ⟨other, hother⟩ := List.mem_iff_getElem?.1 hg
  by_cases hleft : other ∈ index :: left
  · exact (hv.unset other hleft g hother).trans hdefault
  · have hsettled := hv.done other g hother hleft
    by_cases harg : argument args other = .nil
    · rw [harg] at hsettled
      exact (hsettled.unique .default).trans hdefault
    · exact absurd hd (hv.not_dependsOn ht List.mem_cons_self hf hother hleft harg)

/-- The step: the next field is set to the form in which it stores its argument. -/
theorem SettledBut.step {left : List Nat} (ht : t.WellFormed)
    (hv : SettledBut names t args (index :: left) values) (hf : t.fields[index]? = some f)
    (hnew : index ∉ left)
    (hstages : ∀ later ∈ left, ∀ g, t.fields[later]? = some g → f.stage ≤ g.stage)
    (harg : argument args index ≠ .nil)
    (hx : storedForm names t f values (argument args index) = .ok stored)
    (hout : ∀ g ∈ t.fields, out.get g.name = (values.set f.name stored).get g.name) :
    SettledBut names t args left out := by
  have hmem := List.mem_of_getElem? hf
  have hself : out.get f.name = stored := by
    rw [hout f hmem, FieldValues.get_set_self]
  have hothers : ∀ g ∈ t.fields, g.name ≠ f.name → out.get g.name = values.get g.name := by
    intro g hg hname
    rw [hout g hg, FieldValues.get_set_of_ne values hname]
  have hname : ∀ {other g}, t.fields[other]? = some g → other ≠ index → g.name ≠ f.name :=
    fun hg hne heq => hne (ht.index_eq hg hf heq)
  constructor
  · intro later hlater g hg
    have hne : later ≠ index := fun heq => hnew (heq ▸ hlater)
    rw [hothers g (List.mem_of_getElem? hg) (hname hg hne)]
    exact hv.unset later (List.mem_cons_of_mem index hlater) g hg
  · intro other g hg hother
    have hgmem := List.mem_of_getElem? hg
    by_cases hne : other = index
    · subst hne
      have hgf : g = f := Option.some.inj (hg.symm.trans hf)
      subst hgf
      rw [hself]
      refine (Field.Settled.given harg hx).congr fun _ k' k hd hk => ?_
      obtain ⟨k₀, hk₀⟩ := (ht.fields g hmem).integerAt_of_dependsOn hd
      rw [hk₀.eq_of_found hk]
      exact (hothers k₀ hk₀.mem (ht.name_ne_of_dependsOn hmem hd hk₀)).symm
    · have hleft : other ∉ index :: left := by
        rw [List.mem_cons]
        exact fun h => h.elim hne hother
      rw [hothers g hgmem (hname hg hne)]
      refine (hv.done other g hg hleft).congr fun hgiven k' k hd hk => ?_
      obtain ⟨k₀, hk₀⟩ := (ht.fields g hgmem).integerAt_of_dependsOn hd
      rw [hk₀.eq_of_found hk]
      refine (hothers k₀ hk₀.mem fun heq => ?_).symm
      rw [ht.index_eq hk₀.found hf heq] at hd
      exact hv.not_dependsOn ht List.mem_cons_self hf hg hleft hgiven hd
  · intro other g hg hother hgiven later hlater k hk
    by_cases hne : other = index
    · subst hne
      rw [Option.some.inj (hg.symm.trans hf)]
      exact hstages later hlater k hk
    · have hleft : other ∉ index :: left := by
        rw [List.mem_cons]
        exact fun h => h.elim hne hother
      exact hv.stages other g hg hleft hgiven later (List.mem_cons_of_mem index hlater) k hk

/-- What the next field depends on has been set, and to what any settled contents hold. -/
theorem SettledBut.agree {left : List Nat} {goal : FieldValues} (ht : t.WellFormed)
    (hv : SettledBut names t args (index :: left) values) (hgoal : goal.Settle names t args)
    (hf : t.fields[index]? = some f)
    (hstages : ∀ later ∈ left, ∀ g, t.fields[later]? = some g → f.stage ≤ g.stage)
    {other : Nat} {g : Field} (hd : f.DependsOn other) (hg : t.fields[other]? = some g) :
    values.get g.name = goal.get g.name := by
  have hmem := List.mem_of_getElem? hf
  obtain ⟨k, hk⟩ := (ht.fields f hmem).integerAt_of_dependsOn hd
  have hpos := (ht.fields f hmem).stage_pos hd
  rw [hk.eq_of_found hg]
  have hleft : other ∉ index :: left := by
    rw [List.mem_cons]
    rintro (rfl | hlater)
    · exact ht.name_ne_of_dependsOn hmem hd hk (congrArg Field.name (hk.eq_of_found hf).symm)
    · have hle := hstages other hlater k hk.found
      rw [hk.stage] at hle
      omega
  exact hk.settled_unique ht (hv.done other k hk.found hleft) (hgoal other k hk.found)

theorem SettledBut.settle (hv : SettledBut names t args [] values) : values.Settle names t args :=
  fun index f hf => hv.done index f hf List.not_mem_nil

theorem InTurn.tail {order : List Nat} (ho : InTurn t args (index :: order)) :
    InTurn t args order :=
  ⟨(List.nodup_cons.1 ho.nodup).2, fun later h => ho.given later (List.mem_cons_of_mem index h),
    (List.pairwise_cons.1 ho.stages).2⟩

theorem InTurn.head {order : List Nat} (ho : InTurn t args (index :: order)) :
    ∃ f, t.fields[index]? = some f ∧ argument args index ≠ .nil ∧ index ∉ order ∧
      ∀ later ∈ order, ∀ g, t.fields[later]? = some g → f.stage ≤ g.stage := by
  obtain ⟨hlt, harg⟩ := ho.given index List.mem_cons_self
  refine ⟨_, List.getElem?_eq_getElem hlt, harg, (List.nodup_cons.1 ho.nodup).1, ?_⟩
  intro later hlater g hg
  exact (List.pairwise_cons.1 ho.stages).1 later hlater _ g (List.getElem?_eq_getElem hlt) hg

/-- Setters in turn end with contents that settle the arguments. -/
theorem settle_of_setEach (ht : t.WellFormed) {order : List Nat} (ho : InTurn t args order)
    (hv : SettledBut names t args order values) (h : setEach names t args order values = .ok out) :
    out.Settle names t args := by
  induction order generalizing values with
  | nil =>
    cases h
    exact hv.settle
  | cons index order ih =>
    obtain ⟨f, hf, harg, hnew, hstages⟩ := ho.head
    obtain ⟨u, hu, h⟩ := bind_eq_ok_iff.1 h
    cases hx : storedForm names t f values (argument args index) with
    | error refusal =>
      rw [setField_eq_error hf hx] at hu
      cases hu
    | ok stored =>
      obtain ⟨u', hu', hout⟩ :=
        setField_eq_ok ht hf (fun g hg _ hc hi => hv.quiet ht hf hg hc hi) hx
      rw [hu] at hu'
      cases hu'
      exact ih ho.tail (hv.step ht hf hnew hstages harg hx hout) h

/-- Setters in turn end well if the arguments can be settled. -/
theorem setEach_of_settle {goal : FieldValues} (ht : t.WellFormed)
    (hgoal : goal.Settle names t args) {order : List Nat} (ho : InTurn t args order)
    (hv : SettledBut names t args order values) :
    ∃ out, setEach names t args order values = .ok out := by
  induction order generalizing values with
  | nil => exact ⟨values, rfl⟩
  | cons index order ih =>
    obtain ⟨f, hf, harg, hnew, hstages⟩ := ho.head
    have hx : ∃ stored, storedForm names t f values (argument args index) = .ok stored := by
      rw [storedForm_congr _ fun other g hd hg => hv.agree ht hgoal hf hstages hd hg]
      exact ⟨goal.get f.name, (hgoal index f hf).storedForm_eq harg⟩
    obtain ⟨stored, hx⟩ := hx
    obtain ⟨u, hu, hout⟩ := setField_eq_ok ht hf (fun g hg _ hc hi => hv.quiet ht hf hg hc hi) hx
    obtain ⟨out, h⟩ := ih ho.tail (hv.step ht hf hnew hstages harg hx hout)
    exact ⟨out, bind_eq_ok_iff.2 ⟨u, hu, h⟩⟩

/-- Setters in turn, one for each field that has an argument, end well for a record without arguments
exactly if the arguments can be settled, and they settle them. -/
theorem setEach_settles (names : RecordNames) (ht : t.WellFormed) {first : FieldValues}
    (hfirst : ∀ f ∈ t.fields, first.get f.name = f.default) {order : List Nat}
    (ho : InTurn t args order)
    (hall : ∀ index < t.fields.length, argument args index ≠ .nil → index ∈ order) :
    ((∃ out, setEach names t args order first = .ok out) ↔
        ∃ goal : FieldValues, goal.Settle names t args) ∧
      ∀ out, setEach names t args order first = .ok out → out.Settle names t args := by
  have hstart : SettledBut names t args order first := by
    have hnil : ∀ (index : Nat) (f : Field), t.fields[index]? = some f → index ∉ order →
        argument args index = .nil := by
      intro index f hf hleft
      by_contra harg
      exact hleft (hall index (List.getElem?_eq_some_iff.1 hf).1 harg)
    refine ⟨fun index _ f hf => hfirst f (List.mem_of_getElem? hf), fun index f hf hleft => ?_, ?_⟩
    · rw [hnil index f hf hleft, hfirst f (List.mem_of_getElem? hf)]
      exact .default
    · intro index f hf hleft harg
      exact absurd (hnil index f hf hleft) harg
  have hsettles : ∀ out, setEach names t args order first = .ok out → out.Settle names t args :=
    fun _ h => settle_of_setEach ht ho hstart h
  refine ⟨⟨fun h => ?_, fun h => ?_⟩, hsettles⟩
  · obtain ⟨out, h⟩ := h
    exact ⟨out, hsettles out h⟩
  · obtain ⟨goal, hgoal⟩ := h
    exact setEach_of_settle ht hgoal ho hstart

end

end RecordTables
