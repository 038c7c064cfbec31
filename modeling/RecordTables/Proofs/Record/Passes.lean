import RecordTables.Proofs.Record.Filling
import RecordTables.Proofs.Record.Settling

/-!
The constructor settles its arguments.

Each pass of the constructor is taken up again, now with what exactly it puts into the fields, and
with when it ends well.  Where every sequence comes with its count, the second pass fills in nothing,
and `construct_settles` says that the constructor ends well exactly if its arguments can be settled.

What the constructor does depends on its arguments only through the checks, `CheckedAlike`.
-/

namespace RecordTables

/-! ## The passes of the constructor -/

theorem argument_zero (args : List Content) : argument args 0 = args.headD .nil := by
  cases args <;> rfl

theorem argument_succ (args : List Content) (index : Nat) :
    argument args (index + 1) = argument args.tail index := by
  cases args <;> simp [argument]

section

variable {names : RecordNames} {t : Table} {args : List Content} {fields : List Field}
  {values out : FieldValues}

/-- What the first pass puts into the fields it goes through. -/
theorem get_of_fillPlain (hnames : (fields.map (·.name)).Nodup)
    (h : fillPlain names t fields args values = .ok out) :
    (∀ (index : Nat) (f : Field), fields[index]? = some f → f.luaType ≠ .conditional →
        initialContent names t f (argument args index) = .ok (out.get f.name)) ∧
      ∀ name, (∀ f ∈ fields, f.luaType ≠ .conditional → f.name ≠ name) →
        out.get name = values.get name := by
  induction fields generalizing args values with
  | nil =>
    cases h
    refine ⟨fun index f hf => ?_, fun _ _ => rfl⟩
    rw [List.getElem?_nil] at hf
    cases hf
  | cons f fields ih =>
    rw [List.map_cons, List.nodup_cons] at hnames
    rw [fillPlain] at h
    -- the pass comes to the later fields with contents in which only the first field may be new
    obtain ⟨first, hrest, hself, hothers⟩ : ∃ first : FieldValues,
        fillPlain names t fields args.tail first = .ok out ∧
        (f.luaType ≠ .conditional →
          initialContent names t f (args.headD .nil) = .ok (first.get f.name)) ∧
        ∀ name, (f.luaType ≠ .conditional → f.name ≠ name) → first.get name = values.get name := by
      by_cases hl : f.luaType = .conditional
      · rw [if_pos hl] at h
        exact ⟨values, h, fun hne => absurd hl hne, fun _ _ => rfl⟩
      · rw [if_neg hl] at h
        split at h
        · cases h
        · next content hx =>
          refine ⟨_, h, fun _ => ?_, fun name hname => ?_⟩
          · rw [FieldValues.get_set_self]
            exact hx
          · exact FieldValues.get_set_of_ne values (hname hl).symm content
    obtain ⟨hfields, hkeep⟩ := ih hnames.2 hrest
    constructor
    · intro index g hg hl
      cases index with
      | zero =>
        cases hg
        have hfresh : ∀ k ∈ fields, k.luaType ≠ .conditional → k.name ≠ f.name :=
          fun k hk _ heq => hnames.1 (List.mem_map.2 ⟨k, hk, heq⟩)
        rw [hkeep f.name hfresh, argument_zero]
        exact hself hl
      | succ index =>
        rw [argument_succ]
        exact hfields index g hg hl
    · intro name hname
      rw [List.forall_mem_cons] at hname
      rw [hkeep name hname.2, hothers name hname.1]

theorem fillPlain_isOk
    (h : ∀ (index : Nat) (f : Field), fields[index]? = some f → f.luaType ≠ .conditional →
      ∃ c, initialContent names t f (argument args index) = .ok c) :
    ∃ out, fillPlain names t fields args values = .ok out := by
  induction fields generalizing args values with
  | nil => exact ⟨values, rfl⟩
  | cons f fields ih =>
    have hrest : ∀ (index : Nat) (g : Field), fields[index]? = some g → g.luaType ≠ .conditional →
        ∃ c, initialContent names t g (argument args.tail index) = .ok c := by
      intro index g hg hl
      rw [← argument_succ]
      exact h (index + 1) g hg hl
    rw [fillPlain]
    by_cases hl : f.luaType = .conditional
    · rw [if_pos hl]
      exact ih hrest
    · rw [if_neg hl]
      obtain ⟨c, hc⟩ := h 0 f rfl hl
      rw [argument_zero] at hc
      rw [hc]
      exact ih hrest

/-- Where every sequence comes with its count, the second pass only compares the two. -/
theorem fillCounts_eq_ok_iff {derived : List Nat}
    (hgiven : ∀ f ∈ fields, ∀ index items, f.arity = .counted index →
      values.get f.name = .sequence items → argument args index ≠ .nil) :
    fillCounts names t args fields derived values = .ok out ↔ out = values ∧
      ∀ f ∈ fields, ∀ items, values.get f.name = .sequence items →
        checkCount t f values items.length = .ok () := by
  induction fields with
  | nil =>
    constructor
    · intro h
      cases h
      exact ⟨rfl, fun _ hf => absurd hf List.not_mem_nil⟩
    · intro h
      rw [h.1]
      rfl
  | cons f fields ih =>
    rw [List.forall_mem_cons] at hgiven
    rw [fillCounts, List.forall_mem_cons]
    split
    · next index items ha hitems =>
      rw [if_pos (Or.inl (Content.not_isNil_iff.2 (hgiven.1 index items ha hitems)))]
      cases hx : checkCount t f values items.length with
      | error refusal =>
        constructor
        · intro h
          cases h
        · intro h
          have hcount := h.2.1 items hitems
          rw [hx] at hcount
          cases hcount
      | ok _ =>
        rw [ih hgiven.2]
        constructor
        · intro h
          refine ⟨h.1, fun items' hitems' => ?_, h.2⟩
          rw [hitems] at hitems'
          cases hitems'
          exact hx
        · intro h
          exact ⟨h.1, h.2.2⟩
    · next hnot =>
      rw [ih hgiven.2]
      constructor
      · intro h
        refine ⟨h.1, fun items hitems => ?_, h.2⟩
        unfold checkCount
        split
        · next index ha => exact (hnot index items ha hitems).elim
        · rfl
      · intro h
        exact ⟨h.1, h.2.2⟩

/-- Whether a conditional field accepts a value does not depend on the other conditional fields. -/
theorem checkConditional_set (ht : t.WellFormed) {f g : Field} (hf : f ∈ t.fields)
    (hl : f.luaType = .conditional) (hg : g ∈ t.fields) (c arg : Content) :
    checkConditional names t g (values.set f.name c) arg = checkConditional names t g values arg := by
  refine checkConditional_congr arg (get_eq_of_dependsOn ht (fun k hk hplain => ?_) hg)
  refine FieldValues.get_set_of_ne values (ht.name_ne hk hf ?_) c
  rw [hl]
  exact hplain

/-- What the third pass puts into the fields it goes through. -/
theorem get_of_fillConditional (ht : t.WellFormed) (hfields : ∀ f ∈ fields, f ∈ t.fields)
    (hnames : (fields.map (·.name)).Nodup)
    (h : fillConditional names t fields args values = .ok out) :
    (∀ (index : Nat) (f : Field), fields[index]? = some f → f.luaType = .conditional →
        argument args index ≠ .nil → ∃ v,
          checkConditional names t f values (argument args index) = .ok v ∧
          out.get f.name = .single v) ∧
      ∀ name, (∀ (index : Nat) (f : Field), fields[index]? = some f → f.luaType = .conditional →
        argument args index ≠ .nil → f.name ≠ name) → out.get name = values.get name := by
  induction fields generalizing args values with
  | nil =>
    cases h
    refine ⟨fun index f hf => ?_, fun _ _ => rfl⟩
    rw [List.getElem?_nil] at hf
    cases hf
  | cons f fields ih =>
    rw [List.map_cons, List.nodup_cons] at hnames
    rw [List.forall_mem_cons] at hfields
    rw [fillConditional] at h
    -- the pass comes to the later fields with contents in which only the first field may be new
    obtain ⟨first, hrest, hself, hothers, hcheck⟩ : ∃ first : FieldValues,
        fillConditional names t fields args.tail first = .ok out ∧
        (f.luaType = .conditional → args.headD .nil ≠ .nil → ∃ v,
          checkConditional names t f values (args.headD .nil) = .ok v ∧
          first.get f.name = .single v) ∧
        (∀ name, (f.luaType = .conditional → args.headD .nil ≠ .nil → f.name ≠ name) →
          first.get name = values.get name) ∧
        ∀ g ∈ t.fields, ∀ arg,
          checkConditional names t g first arg = checkConditional names t g values arg := by
      by_cases hcond : f.luaType = .conditional ∧ (!(args.headD .nil).isNil) = true
      · rw [if_pos hcond] at h
        obtain ⟨hl, hnil⟩ := hcond
        split at h
        · cases h
        · next v hv =>
          refine ⟨_, h, fun _ _ => ⟨v, hv, ?_⟩, fun name hname => ?_, fun g hg arg => ?_⟩
          · exact FieldValues.get_set_self values f.name _
          · exact FieldValues.get_set_of_ne values (hname hl (Content.not_isNil_iff.1 hnil)).symm _
          · exact checkConditional_set ht hfields.1 hl hg _ arg
      · rw [if_neg hcond] at h
        refine ⟨values, h, fun hl harg => ?_, fun _ _ => rfl, fun _ _ _ => rfl⟩
        exact absurd ⟨hl, Content.not_isNil_iff.2 harg⟩ hcond
    obtain ⟨hlater, hkeep⟩ := ih hfields.2 hnames.2 hrest
    constructor
    · intro index g hg hl harg
      cases index with
      | zero =>
        cases hg
        have hfresh : ∀ k ∈ fields, k.name ≠ f.name :=
          fun k hk heq => hnames.1 (List.mem_map.2 ⟨k, hk, heq⟩)
        rw [hkeep f.name fun _ k hk _ _ => hfresh k (List.mem_of_getElem? hk), argument_zero]
        rw [argument_zero] at harg
        exact hself hl harg
      | succ index =>
        rw [argument_succ] at harg ⊢
        rw [← hcheck g (hfields.2 g (List.mem_of_getElem? hg))]
        exact hlater index g hg hl harg
    · intro name hname
      rw [hkeep name fun index g hg hl harg =>
        hname (index + 1) g hg hl (argument_succ args index ▸ harg)]
      exact hothers name fun hl harg => hname 0 f rfl hl (argument_zero args ▸ harg)

theorem fillConditional_isOk (ht : t.WellFormed) (hfields : ∀ f ∈ fields, f ∈ t.fields)
    (h : ∀ (index : Nat) (f : Field), fields[index]? = some f → f.luaType = .conditional →
      argument args index ≠ .nil →
      ∃ v, checkConditional names t f values (argument args index) = .ok v) :
    ∃ out, fillConditional names t fields args values = .ok out := by
  induction fields generalizing args values with
  | nil => exact ⟨values, rfl⟩
  | cons f fields ih =>
    rw [List.forall_mem_cons] at hfields
    have hrest : ∀ (index : Nat) (g : Field), fields[index]? = some g → g.luaType = .conditional →
        argument args.tail index ≠ .nil →
        ∃ v, checkConditional names t g values (argument args.tail index) = .ok v := by
      intro index g hg hl
      rw [← argument_succ]
      exact h (index + 1) g hg hl
    rw [fillConditional]
    by_cases hcond : f.luaType = .conditional ∧ (!(args.headD .nil).isNil) = true
    · rw [if_pos hcond]
      obtain ⟨v, hv⟩ := h 0 f rfl hcond.1 (argument_zero args ▸ Content.not_isNil_iff.1 hcond.2)
      rw [argument_zero] at hv
      rw [hv]
      refine ih hfields.2 fun index g hg hl harg => ?_
      rw [checkConditional_set ht hfields.1 hcond.1 (hfields.2 g (List.mem_of_getElem? hg))]
      exact hrest index g hg hl harg
    · rw [if_neg hcond]
      exact ih hfields.2 hrest

end

/-! ## The constructor and the setters -/

/-- Every sequence that is given for a field with a count comes with this count. -/
def CountsGiven (t : Table) (args : List Content) : Prop :=
  ∀ index f count items, t.fields[index]? = some f → f.arity = .counted count →
    argument args index = .sequence items → argument args count ≠ .nil

section

variable {names : RecordNames} {t : Table} {args : List Content} {out : FieldValues}

theorem initialContent_of_ne {f : Field} {arg : Content} (harg : arg ≠ .nil) :
    initialContent names t f arg = checkField names t f arg := by
  unfold initialContent
  rw [if_neg (mt Content.isNil_iff.1 harg)]

/-- What a field that is not conditional holds for its argument is what the first pass puts there. -/
theorem Field.Settled.initialContent_eq {values : FieldValues} {f : Field} {arg c : Content}
    (h : f.Settled names t values arg c) (hl : f.luaType ≠ .conditional) :
    initialContent names t f arg = .ok c := by
  cases h with
  | default => rfl
  | given harg hstored =>
    rw [initialContent_of_ne harg]
    exact ((storedForm_eq_ok_iff hl harg).1 hstored).1

/-- A field that holds a sequence after the first pass was given one. -/
theorem sequence_of_initialContent {f : Field} (hf : f.WellFormed t) (hl : f.luaType ≠ .conditional)
    {arg : Content} {items : List Value}
    (h : initialContent names t f arg = .ok (.sequence items)) :
    ∃ given, arg = .sequence given := by
  obtain ⟨given, hgiven, _⟩ := ((initialContent_yields names hf hl arg).of_ok h).2 items rfl
  exact ⟨given, hgiven⟩

/-- Contents after the first pass, which put into every field that is not conditional what its
argument asks for. -/
structure PlainFilled (names : RecordNames) (t : Table) (args : List Content)
    (values : FieldValues) : Prop where
  plain : ∀ (index : Nat) (f : Field), t.fields[index]? = some f → f.luaType ≠ .conditional →
    initialContent names t f (argument args index) = .ok (values.get f.name)
  unset : ∀ f ∈ t.fields, f.luaType = .conditional → values.get f.name = .nil

theorem plainFilled_of_fillPlain (ht : t.WellFormed)
    (h : fillPlain names t t.fields args .empty = .ok out) : PlainFilled names t args out := by
  obtain ⟨hplain, hothers⟩ := get_of_fillPlain ht.names h
  refine ⟨hplain, fun f hf hl => ?_⟩
  rw [hothers f.name fun g hg hne => ht.name_ne hg hf (by rw [hl]; exact hne)]
  rfl

theorem PlainFilled.countsGiven (ht : t.WellFormed) (hgiven : CountsGiven t args)
    (hfirst : PlainFilled names t args out) :
    ∀ f ∈ t.fields, ∀ count items, f.arity = .counted count → out.get f.name = .sequence items →
      argument args count ≠ .nil := by
  intro f hf count items ha hitems
  obtain ⟨index, hindex⟩ := List.mem_iff_getElem?.1 hf
  have hl := (ht.fields f hf).plain_of_counted ha
  have hinitial := hfirst.plain index f hindex hl
  rw [hitems] at hinitial
  obtain ⟨given, harg⟩ := sequence_of_initialContent (ht.fields f hf) hl hinitial
  exact hgiven index f count given hindex ha harg

section

variable {first : FieldValues} {index : Nat} {f : Field}

theorem PlainFilled.settled_plain (ht : t.WellFormed) (hfirst : PlainFilled names t args first)
    (hcounts : ∀ f ∈ t.fields, ∀ items, first.get f.name = .sequence items →
      checkCount t f first items.length = .ok ())
    (hagree : ∀ g ∈ t.fields, g.luaType ≠ .conditional → first.get g.name = out.get g.name)
    (hf : t.fields[index]? = some f) (hl : f.luaType ≠ .conditional) :
    f.Settled names t out (argument args index) (out.get f.name) := by
  have hmem := List.mem_of_getElem? hf
  have hinitial := hfirst.plain index f hf hl
  rw [← hagree f hmem hl]
  by_cases harg : argument args index = .nil
  · rw [harg] at hinitial ⊢
    rw [← Except.ok.inj hinitial]
    exact .default
  · rw [initialContent_of_ne harg] at hinitial
    refine .given harg ((storedForm_eq_ok_iff hl harg).2 ⟨hinitial, fun items hitems => ?_⟩)
    rw [← checkCount_congr _ (get_eq_of_dependsOn ht hagree hmem)]
    exact hcounts f hmem items hitems

/-- The third pass leaves all fields but the conditional ones. -/
theorem plain_of_fillConditional (ht : t.WellFormed)
    (h : fillConditional names t t.fields args first = .ok out) :
    ∀ g ∈ t.fields, g.luaType ≠ .conditional → first.get g.name = out.get g.name := by
  intro g hg hl
  refine ((get_of_fillConditional ht (fun _ hf => hf) ht.names h).2 g.name ?_).symm
  intro index k hk hcond _
  exact ht.name_ne (List.mem_of_getElem? hk) hg (by rw [hcond]; exact hl.symm)

/-- What the third pass leaves in a conditional field is what its argument asks for. -/
theorem Field.settled_of_fillConditional (ht : t.WellFormed)
    (h : fillConditional names t t.fields args first = .ok out)
    (hagree : ∀ g ∈ t.fields, g.luaType ≠ .conditional → first.get g.name = out.get g.name)
    (hf : t.fields[index]? = some f) (hl : f.luaType = .conditional)
    (hunset : first.get f.name = .nil) :
    f.Settled names t out (argument args index) (out.get f.name) := by
  have hmem := List.mem_of_getElem? hf
  obtain ⟨hchosen, hkeep⟩ := get_of_fillConditional ht (fun _ hf => hf) ht.names h
  by_cases harg : argument args index = .nil
  · have hdefault : out.get f.name = f.default := by
      rw [hkeep f.name, hunset]
      · exact (Field.default_eq_nil (by simp [Field.MayBeUnset, hl])).symm
      · intro other g hg _ hother hname
        rw [ht.index_eq hg hf hname] at hother
        exact hother harg
    rw [harg, hdefault]
    exact .default
  · obtain ⟨v, hv, hget⟩ := hchosen index f hf hl harg
    rw [hget]
    refine .given harg ?_
    rw [storedForm_of_conditional hl harg,
      ← checkConditional_congr _ (get_eq_of_dependsOn ht hagree hmem), hv]
    rfl

end

/-- The constructor ends with contents that settle its arguments. -/
theorem settle_of_construct (ht : t.WellFormed) (hgiven : CountsGiven t args)
    (h : construct names t args = .ok out) : out.Settle names t args := by
  obtain ⟨first, hfirst, h⟩ := bind_eq_ok_iff.1 h
  obtain ⟨second, hsecond, hthird⟩ := bind_eq_ok_iff.1 h
  have hfilled := plainFilled_of_fillPlain ht hfirst
  obtain ⟨hsame, hcounts⟩ := (fillCounts_eq_ok_iff (hfilled.countsGiven ht hgiven)).1 hsecond
  rw [hsame] at hthird
  have hagree := plain_of_fillConditional ht hthird
  intro index f hf
  by_cases hl : f.luaType = .conditional
  · exact f.settled_of_fillConditional ht hthird hagree hf hl
      (hfilled.unset f (List.mem_of_getElem? hf) hl)
  · exact hfilled.settled_plain ht hcounts hagree hf hl

theorem PlainFilled.agree {first goal : FieldValues} (hfirst : PlainFilled names t args first)
    (hgoal : goal.Settle names t args) :
    ∀ f ∈ t.fields, f.luaType ≠ .conditional → first.get f.name = goal.get f.name := by
  intro f hf hl
  obtain ⟨index, hindex⟩ := List.mem_iff_getElem?.1 hf
  have hinitial := hfirst.plain index f hindex hl
  rw [(hgoal index f hindex).initialContent_eq hl] at hinitial
  exact (Except.ok.inj hinitial).symm

/-- Where arguments can be settled, the sequences of the first pass are as long as their counts. -/
theorem PlainFilled.checkCount_eq_ok (ht : t.WellFormed) {first goal : FieldValues}
    (hfirst : PlainFilled names t args first) (hgoal : goal.Settle names t args) :
    ∀ f ∈ t.fields, ∀ items, first.get f.name = .sequence items →
      checkCount t f first items.length = .ok () := by
  intro f hf items hitems
  have hagree := hfirst.agree hgoal
  obtain ⟨index, hindex⟩ := List.mem_iff_getElem?.1 hf
  have hl : f.luaType ≠ .conditional := by
    intro hcond
    rw [hfirst.unset f hf hcond] at hitems
    cases hitems
  have harg : argument args index ≠ .nil := by
    intro hnil
    have hinitial := hfirst.plain index f hindex hl
    rw [hitems, hnil] at hinitial
    exact f.default_ne_sequence items (Except.ok.inj hinitial)
  have hstored := (hgoal index f hindex).storedForm_eq harg
  rw [checkCount_congr _ (get_eq_of_dependsOn ht hagree hf)]
  rw [hagree f hf hl] at hitems
  exact ((storedForm_eq_ok_iff hl harg).1 hstored).2 items hitems

/-- The constructor ends well if its arguments can be settled. -/
theorem construct_of_settle (ht : t.WellFormed) (hgiven : CountsGiven t args) {goal : FieldValues}
    (hgoal : goal.Settle names t args) : ∃ out, construct names t args = .ok out := by
  obtain ⟨first, hfirst⟩ : ∃ first, fillPlain names t t.fields args .empty = .ok first :=
    fillPlain_isOk fun index f hf hl => ⟨_, (hgoal index f hf).initialContent_eq hl⟩
  have hfilled := plainFilled_of_fillPlain ht hfirst
  have hsecond : fillCounts names t args t.fields [] first = .ok first :=
    (fillCounts_eq_ok_iff (hfilled.countsGiven ht hgiven)).2
      ⟨rfl, hfilled.checkCount_eq_ok ht hgoal⟩
  obtain ⟨out, hthird⟩ : ∃ out, fillConditional names t t.fields args first = .ok out := by
    refine fillConditional_isOk ht (fun _ hf => hf) fun index f hf hl harg => ?_
    have hstored := (hgoal index f hf).storedForm_eq harg
    rw [storedForm_of_conditional hl harg, map_eq_ok_iff] at hstored
    obtain ⟨v, hv, _⟩ := hstored
    have hdepends := get_eq_of_dependsOn ht (hfilled.agree hgoal) (List.mem_of_getElem? hf)
    exact ⟨v, (checkConditional_congr _ hdepends).trans hv⟩
  exact ⟨out, bind_eq_ok_iff.2 ⟨first, hfirst, bind_eq_ok_iff.2 ⟨first, hsecond, hthird⟩⟩⟩

theorem PlainFilled.settle_nil (hfirst : PlainFilled names t [] out) : out.Settle names t [] := by
  intro index f hf
  have hdefault : out.get f.name = f.default := by
    by_cases hl : f.luaType = .conditional
    · rw [hfirst.unset f (List.mem_of_getElem? hf) hl]
      exact (Field.default_eq_nil (by simp [Field.MayBeUnset, hl])).symm
    · have hinitial := hfirst.plain index f hf hl
      rw [argument_nil] at hinitial
      exact (Except.ok.inj hinitial).symm
  rw [argument_nil, hdefault]
  exact .default

/-- Without arguments the constructor ends with the default of every field. -/
theorem construct_nil (names : RecordNames) (ht : t.WellFormed) :
    ∃ first, construct names t [] = .ok first ∧
      ∀ f ∈ t.fields, first.get f.name = f.default := by
  obtain ⟨plain, hplain⟩ : ∃ plain, fillPlain names t t.fields [] .empty = .ok plain := by
    refine fillPlain_isOk fun index f _ _ => ⟨f.default, ?_⟩
    rw [argument_nil]
    rfl
  have hgiven : CountsGiven t [] := by
    intro index f count items _ _ harg
    rw [argument_nil] at harg
    cases harg
  obtain ⟨first, hfirst⟩ :=
    construct_of_settle ht hgiven (plainFilled_of_fillPlain ht hplain).settle_nil
  refine ⟨first, hfirst, fun f hf => ?_⟩
  obtain ⟨index, hindex⟩ := List.mem_iff_getElem?.1 hf
  exact (settle_of_construct ht hgiven hfirst).default hindex

/-- The constructor ends well exactly if its arguments can be settled, and it settles them. -/
theorem construct_settles (names : RecordNames) (ht : t.WellFormed) (hgiven : CountsGiven t args) :
    ((∃ out, construct names t args = .ok out) ↔ ∃ goal : FieldValues, goal.Settle names t args) ∧
      ∀ out, construct names t args = .ok out → out.Settle names t args := by
  have hsettles : ∀ out, construct names t args = .ok out → out.Settle names t args :=
    fun _ h => settle_of_construct ht hgiven h
  refine ⟨⟨fun h => ?_, fun h => ?_⟩, hsettles⟩
  · obtain ⟨out, h⟩ := h
    exact ⟨out, hsettles out h⟩
  · obtain ⟨goal, hgoal⟩ := h
    exact construct_of_settle ht hgiven hgoal

end

/-! ## Arguments that are checked alike -/

section

variable {names : RecordNames} {t : Table} {args args' : List Content} {fields : List Field}
  {n : Nat}

/-- Two lists of arguments of which the checks of fields make the same. -/
structure CheckedAlike (names : RecordNames) (t : Table) (fields : List Field)
    (args args' : List Content) : Prop where
  plain : ∀ (index : Nat) (f : Field), fields[index]? = some f → f.luaType ≠ .conditional →
    initialContent names t f (argument args index) = initialContent names t f (argument args' index)
  chosen : ∀ (index : Nat) (f : Field), fields[index]? = some f → f.luaType = .conditional →
    argument args index = argument args' index

theorem CheckedAlike.head_plain {f : Field} (h : CheckedAlike names t (f :: fields) args args')
    (hl : f.luaType ≠ .conditional) :
    initialContent names t f (args.headD .nil) = initialContent names t f (args'.headD .nil) := by
  rw [← argument_zero, ← argument_zero]
  exact h.plain 0 f rfl hl

theorem CheckedAlike.head_chosen {f : Field} (h : CheckedAlike names t (f :: fields) args args')
    (hl : f.luaType = .conditional) : args.headD .nil = args'.headD .nil := by
  rw [← argument_zero, ← argument_zero]
  exact h.chosen 0 f rfl hl

theorem CheckedAlike.tail {f : Field} (h : CheckedAlike names t (f :: fields) args args') :
    CheckedAlike names t fields args.tail args'.tail := by
  constructor
  · intro index g hg hl
    rw [← argument_succ, ← argument_succ]
    exact h.plain (index + 1) g hg hl
  · intro index g hg hl
    rw [← argument_succ, ← argument_succ]
    exact h.chosen (index + 1) g hg hl

theorem CheckedAlike.fillPlain_eq (h : CheckedAlike names t fields args args')
    (values : FieldValues) :
    fillPlain names t fields args values = fillPlain names t fields args' values := by
  induction fields generalizing args args' values with
  | nil => rfl
  | cons f fields ih =>
    unfold fillPlain
    by_cases hl : f.luaType = .conditional
    · rw [if_pos hl, if_pos hl, ih h.tail]
    · simp only [if_neg hl, h.head_plain hl, ih h.tail]

theorem CheckedAlike.reached_eq (h : CheckedAlike names t fields args args') :
    reached names t fields args = reached names t fields args' := by
  induction fields generalizing args args' with
  | nil => rfl
  | cons f fields ih =>
    unfold reached
    by_cases hl : f.luaType = .conditional
    · rw [if_pos hl, if_pos hl, ih h.tail]
    · simp only [if_neg hl, h.head_plain hl, ih h.tail]

/-- The second pass looks only at whether counts are given. -/
theorem fillCounts_congr (h : ∀ f ∈ fields, ∀ index, f.arity = .counted index →
      (argument args index).isNil = (argument args' index).isNil)
    (derived : List Nat) (values : FieldValues) :
    fillCounts names t args fields derived values =
      fillCounts names t args' fields derived values := by
  induction fields generalizing derived values with
  | nil => rfl
  | cons f fields ih =>
    rw [List.forall_mem_cons] at h
    have hrest := fun derived values => ih h.2 derived values
    unfold fillCounts
    split
    · next index items ha hitems => simp only [h.1 index ha, hrest]
    · exact hrest derived values

theorem CheckedAlike.fillConditional_eq (h : CheckedAlike names t fields args args')
    (values : FieldValues) :
    fillConditional names t fields args values = fillConditional names t fields args' values := by
  induction fields generalizing args args' values with
  | nil => rfl
  | cons f fields ih =>
    have hrest := ih h.tail
    unfold fillConditional
    by_cases hl : f.luaType = .conditional
    · simp only [h.head_chosen hl, hrest]
    · have hnot : ∀ arg : Content, ¬(f.luaType = .conditional ∧ (!arg.isNil) = true) :=
        fun _ hand => hl hand.1
      rw [if_neg (hnot _), if_neg (hnot _), hrest]

theorem CheckedAlike.construct_eq (h : CheckedAlike names t t.fields args args')
    (hcounts : ∀ f ∈ t.fields, ∀ index, f.arity = .counted index →
      (argument args index).isNil = (argument args' index).isNil) :
    construct names t args = construct names t args' := by
  simp only [construct, h.fillPlain_eq, fillCounts_congr hcounts, h.fillConditional_eq]

theorem argument_take {index : Nat} (h : index < n) :
    argument (args.take n) index = argument args index := by
  unfold argument
  rw [List.getD_eq_getElem?_getD, List.getD_eq_getElem?_getD, List.getElem?_take_of_lt h]

/-- The checks of the fields see no argument beyond the last field. -/
theorem checkedAlike_take (names : RecordNames) (t : Table) (h : fields.length ≤ n)
    (args : List Content) : CheckedAlike names t fields (args.take n) args := by
  have hsame : ∀ index f, fields[index]? = some f →
      argument (args.take n) index = argument args index := by
    intro index f hf
    exact argument_take (Nat.lt_of_lt_of_le (List.getElem?_eq_some_iff.1 hf).1 h)
  constructor
  · intro index f hf _
    rw [hsame index f hf]
  · intro index f hf _
    exact hsame index f hf

theorem length_reached_le (args : List Content) :
    (reached names t fields args).length ≤ fields.length := by
  induction fields generalizing args with
  | nil => exact Nat.le_refl 0
  | cons f fields ih =>
    have hrest := Nat.succ_le_succ (ih args.tail)
    unfold reached
    split
    · exact hrest
    · split
      · exact Nat.succ_le_succ (Nat.zero_le _)
      · exact hrest

/-- The constructor sees as many arguments as there are fields. -/
theorem construct_take (ht : t.WellFormed) :
    construct names t (args.take t.fields.length) = construct names t args := by
  refine (checkedAlike_take names t (Nat.le_refl _) args).construct_eq fun f hf index ha => ?_
  obtain ⟨g, hg⟩ := (ht.fields f hf).counter ha
  rw [argument_take (List.getElem?_eq_some_iff.1 hg.found).1]

end

end RecordTables
