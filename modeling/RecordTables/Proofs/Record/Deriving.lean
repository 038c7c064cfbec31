import RecordTables.Proofs.Record.Accepting
import RecordTables.Proofs.Record.Counting
import RecordTables.Proofs.Record.Passes

/-!
Counts that are derived from sequences.

A count that is not given is filled in with the length of the first sequence that it counts.
`Completes` says of arguments that they give each such count, and otherwise what other arguments
give.  The constructor does the same for both (`construct_completes`): what it ends with for the
arguments without the counts settles the arguments with them.
-/

namespace RecordTables

/-! ## Lengths that stand for counts -/

/-- The length of the first sequence that is given for a field with that count. -/
def leadingLength? (t : Table) (args : List Content) (count : Nat) : Option Nat :=
  t.fields.zipIdx.findSome? fun p => p.1.countedLength? count (argument args p.2)

/-- The argument at an index or, if there is none, the length that stands for it. -/
def completedArgument (t : Table) (args : List Content) (index : Nat) : Content :=
  if argument args index = .nil then
    match leadingLength? t args index with
    | some length => .single (.integer (Int64.ofNat length))
    | none => .nil
  else argument args index

/-- Arguments that give each count which others leave to a sequence. -/
def Completes (t : Table) (args args' : List Content) : Prop :=
  ∀ index < t.fields.length, argument args' index = completedArgument t args index

/-- The length of every sequence among contents is an integer. -/
def Countable (args : List Content) : Prop :=
  ∀ items, .sequence items ∈ args → (Int64.ofNat items.length).toInt = items.length

section

variable {t : Table} {f : Field} {count : Nat}

/-- A count that sequences have is an integer field. -/
theorem integerAt_of_leadingLength? (ht : t.WellFormed) {args : List Content} {length : Nat}
    (h : leadingLength? t args count = some length) : ∃ g, t.IntegerAt count g := by
  obtain ⟨⟨f, index⟩, hmem, hlength⟩ := List.exists_of_findSome?_eq_some h
  have hf := ht.fields f (List.mem_of_getElem? (List.mem_zipIdx_iff_getElem?.1 hmem))
  by_contra hnone
  rw [countedLength?_eq_none fun _ ha => absurd (hf.counter ha) hnone] at hlength
  cases hlength

theorem leadingLength?_isSome {args : List Content} {index : Nat} (hf : t.fields[index]? = some f)
    (ha : f.arity = .counted count) {items : List Value}
    (harg : argument args index = .sequence items) :
    ∃ length, leadingLength? t args count = some length := by
  cases h : leadingLength? t args count with
  | some length => exact ⟨length, rfl⟩
  | none =>
    unfold leadingLength? at h
    have hnone := List.findSome?_eq_none_iff.1 h (f, index) (List.mem_zipIdx_iff_getElem?.2 hf)
    simp only [harg, countedLength?_of_sequence ha] at hnone
    cases hnone

end

/-! ## The first pass -/

section

variable {names : RecordNames} {t : Table} {args : List Content} {f : Field} {count : Nat}
  {first : FieldValues}

theorem PlainFilled.pending (ht : t.WellFormed) (hfirst : PlainFilled names t args first) :
    first.Pending names t := by
  refine ⟨fun f hf hl => ?_, hfirst.unset⟩
  obtain ⟨index, hindex⟩ := List.mem_iff_getElem?.1 hf
  exact ((initialContent_yields names (ht.fields f hf) hl _).of_ok (hfirst.plain index f hindex hl)).1

/-- The first pass puts a sequence into a counted field if one is given, with as many items. -/
theorem counted_of_initialContent (hf : f.WellFormed t) (ha : f.arity = .counted count)
    {arg c : Content} (h : initialContent names t f arg = .ok c) :
    arg = .nil ∧ c = .nil ∨ ∃ given items, arg = .sequence given ∧ c = .sequence items ∧
      items.length = given.length := by
  by_cases harg : arg = .nil
  · left
    have hunset : f.MayBeUnset := by simp [Field.MayBeUnset, hf.luaType_of_counted ha]
    subst harg
    cases h
    exact ⟨rfl, Field.default_eq_nil hunset⟩
  · right
    rw [initialContent_of_ne harg] at h
    cases hf with
    | single hone => cases hone.symm.trans ha
    | conditional hone => cases hone.symm.trans ha
    | sequence hseq _ htype _ hknown =>
      rw [checkField_of_sequence hseq htype, map_eq_ok_iff] at h
      obtain ⟨items, hitems, rfl⟩ := h
      obtain ⟨_, _, given, rfl, hlength⟩ :=
        (checkSequence_yields names (t.place f) hknown f.arity arg).of_ok hitems
      exact ⟨given, items, rfl, rfl, hlength⟩

/-- The lengths among the contents of the first pass are those among its arguments. -/
theorem PlainFilled.findSome?_eq (ht : t.WellFormed) (hfirst : PlainFilled names t args first)
    (count : Nat) :
    (t.fields.findSome? fun f => f.countedLength? count (first.get f.name)) =
      leadingLength? t args count := by
  have hlength : ∀ p ∈ t.fields.zipIdx, p.1.countedLength? count (first.get p.1.name) =
      p.1.countedLength? count (argument args p.2) := by
    intro p hp
    have hf := List.mem_zipIdx_iff_getElem?.1 hp
    have hwf := ht.fields p.1 (List.mem_of_getElem? hf)
    by_cases ha : p.1.arity = .counted count
    · have hinitial := hfirst.plain p.2 p.1 hf (hwf.plain_of_counted ha)
      rcases counted_of_initialContent hwf ha hinitial with
        ⟨harg, hget⟩ | ⟨given, items, harg, hget, hsame⟩
      · rw [harg, hget]
      · rw [harg, hget, countedLength?_of_sequence ha, countedLength?_of_sequence ha, hsame]
    · rw [countedLength?_eq_none fun _ ha' => absurd ha' ha,
        countedLength?_eq_none fun _ ha' => absurd ha' ha]
  calc t.fields.findSome? (fun f => f.countedLength? count (first.get f.name))
      = (t.fields.zipIdx.map Prod.fst).findSome?
          (fun f => f.countedLength? count (first.get f.name)) := by rw [List.zipIdx_map_fst]
    _ = t.fields.zipIdx.findSome? (fun p => p.1.countedLength? count (first.get p.1.name)) :=
        List.findSome?_map
    _ = leadingLength? t args count := findSome?_congr hlength

end

/-! ## Arguments with their counts -/

section

variable {names : RecordNames} {t : Table} {args args' : List Content} {index : Nat} {f : Field}
  {first second out goal : FieldValues}

theorem completedArgument_of_ne (harg : argument args index ≠ .nil) :
    completedArgument t args index = argument args index := by
  unfold completedArgument
  rw [if_neg harg]

/-- Only counts are completed. -/
theorem completedArgument_of_not_integerAt (ht : t.WellFormed)
    (hnot : ¬∃ g, t.IntegerAt index g) :
    completedArgument t args index = argument args index := by
  unfold completedArgument
  by_cases harg : argument args index = .nil
  · rw [if_pos harg]
    cases h : leadingLength? t args index with
    | some length => exact absurd (integerAt_of_leadingLength? ht h) hnot
    | none => exact harg.symm
  · rw [if_neg harg]

theorem Completes.argument_eq (h : Completes t args args') (hf : t.fields[index]? = some f) :
    argument args' index = completedArgument t args index :=
  h index (List.getElem?_eq_some_iff.1 hf).1

/-- A field that is no integer field has the same argument in both. -/
theorem Completes.argument_eq_of_luaType (ht : t.WellFormed) (h : Completes t args args')
    (hf : t.fields[index]? = some f) (hl : f.luaType ≠ .integer) :
    argument args' index = argument args index := by
  rw [h.argument_eq hf]
  refine completedArgument_of_not_integerAt ht fun hinteger => ?_
  obtain ⟨g, hg⟩ := hinteger
  rw [hg.eq_of_found hf] at hl
  exact hl hg.luaType

theorem Field.WellFormed.arity_of_integer (hf : f.WellFormed t) (hl : f.luaType = .integer) :
    f.arity = .one := by
  cases hf with
  | single ha => exact ha
  | sequence _ _ _ htable => cases hl.symm.trans htable
  | conditional ha => exact ha

section

variable (ht : t.WellFormed) (hfirst : PlainFilled names t args first)
  (hsecond : fillCounts names t args t.fields [] first = .ok second)
  (hargs : Completes t args args')

include ht hfirst hsecond hargs

/-- What the first two passes put into a count that is left out is what its completion asks for. -/
theorem PlainFilled.settled_count (hat : t.IntegerAt index f)
    (hunset : argument args index = .nil) :
    f.Settled names t second (argument args' index) (second.get f.name) := by
  have hdefault := hfirst.plain index f hat.found hat.plain
  rw [hunset] at hdefault
  have hunknown : ¬Known args [] index := by
    rintro (hgiven | hderived)
    · exact Content.not_isNil_iff.1 hgiven hunset
    · exact List.not_mem_nil hderived
  have hcount := get_of_fillCounts ht hat (fun _ h => h) (hfirst.pending ht) hunknown hsecond
  rw [hfirst.findSome?_eq ht] at hcount
  rw [hargs.argument_eq hat.found]
  unfold completedArgument
  rw [if_pos hunset]
  cases hlength : leadingLength? t args index with
  | none =>
    rw [hlength] at hcount
    have hkept : second.get f.name = f.default := hcount.trans (Except.ok.inj hdefault).symm
    rw [hkept]
    exact .default
  | some length =>
    rw [hlength] at hcount
    have hgiven : Content.single (.integer (Int64.ofNat length)) ≠ .nil :=
      fun h => Value.noConfusion (Content.single.inj h)
    refine .given hgiven
      ((storedForm_eq_ok_iff hat.plain hgiven).2 ⟨hcount, fun items hitems => ?_⟩)
    obtain ⟨n, _, hn⟩ := checkField_integer_eq_ok hat hcount
    cases hn.symm.trans hitems

/-- What the first two passes put into a field that is given is what the argument asks for. -/
theorem PlainFilled.settled_given (hcountable : Countable args) (hf : t.fields[index]? = some f)
    (hl : f.luaType ≠ .conditional) (harg : argument args index ≠ .nil) :
    f.Settled names t second (argument args' index) (second.get f.name) := by
  have hmem := List.mem_of_getElem? hf
  have hwf := ht.fields f hmem
  have hfilled :=
    (fillCounts_yields names ht args (fun _ h => h) [] (hfirst.pending ht)).of_ok hsecond
  have hkept : second.get f.name = first.get f.name := by
    by_cases hinteger : f.luaType = .integer
    · exact hfilled.known index f hf (Or.inl (Content.not_isNil_iff.2 harg))
    · exact hfilled.others f hmem hinteger
  have hinitial := hfirst.plain index f hf hl
  rw [initialContent_of_ne harg] at hinitial
  rw [hargs.argument_eq hf, completedArgument_of_ne harg, hkept]
  refine .given harg ((storedForm_eq_ok_iff hl harg).2 ⟨hinitial, fun items hitems => ?_⟩)
  refine (checkCount_eq_ok_iff hwf hfilled.pending.conform _).2 fun count ha => ?_
  obtain ⟨g, hg⟩ := hwf.counter ha
  refine ⟨g, _, hg.found, hfilled.counts f hmem count g items ha hg (hkept.trans hitems), ?_⟩
  obtain ⟨given, hgiven, hsame⟩ := ((checkField_yields names hwf hl _).of_ok hinitial).2 items hitems
  rw [hsame]
  exact hcountable given (hgiven ▸ argument_mem harg)

/-- What the first two passes put into a field is what the completed arguments ask for. -/
theorem PlainFilled.settled_completed (hcountable : Countable args)
    (hf : t.fields[index]? = some f) (hl : f.luaType ≠ .conditional) :
    f.Settled names t second (argument args' index) (second.get f.name) := by
  have hmem := List.mem_of_getElem? hf
  by_cases harg : argument args index = .nil
  · by_cases hinteger : f.luaType = .integer
    · have hone := (ht.fields f hmem).arity_of_integer hinteger
      exact hfirst.settled_count ht hsecond hargs ⟨hf, hinteger, hone⟩ harg
    · have hfilled :=
        (fillCounts_yields names ht args (fun _ h => h) [] (hfirst.pending ht)).of_ok hsecond
      have hdefault := hfirst.plain index f hf hl
      rw [harg] at hdefault
      rw [hargs.argument_eq_of_luaType ht hf hinteger, harg, hfilled.others f hmem hinteger,
        ← Except.ok.inj hdefault]
      exact .default
  · exact hfirst.settled_given ht hsecond hargs hcountable hf hl harg

end

/-- The constructor ends with contents that settle the completed arguments. -/
theorem settle_of_construct_completed (ht : t.WellFormed) (hcountable : Countable args)
    (hargs : Completes t args args') (h : construct names t args = .ok out) :
    out.Settle names t args' := by
  obtain ⟨first, hfirst, h⟩ := bind_eq_ok_iff.1 h
  obtain ⟨second, hsecond, hthird⟩ := bind_eq_ok_iff.1 h
  have hfilled := plainFilled_of_fillPlain ht hfirst
  have hpending := ((fillCounts_yields names ht args (fun _ h => h) []
    (hfilled.pending ht)).of_ok hsecond).pending
  have hagree := plain_of_fillConditional ht hthird
  intro index f hf
  have hmem := List.mem_of_getElem? hf
  by_cases hl : f.luaType = .conditional
  · rw [hargs.argument_eq_of_luaType ht hf (by rw [hl]; decide)]
    exact f.settled_of_fillConditional ht hthird hagree hf hl (hpending.unset f hmem hl)
  · rw [← hagree f hmem hl]
    exact (hfilled.settled_completed ht hsecond hargs hcountable hf hl).congr
      fun _ => get_eq_of_dependsOn ht hagree hmem

/-! ## Contents that settle the completed arguments -/

theorem Table.IntegerAt.integer_of_settled {values : FieldValues} {arg c : Content}
    (hat : t.IntegerAt index f) (h : f.Settled names t values arg c) :
    ∃ n, c = .single (.integer n) := by
  cases h with
  | default =>
    unfold Field.default
    rw [hat.arity, hat.luaType]
    exact ⟨0, rfl⟩
  | given harg hstored =>
    obtain ⟨n, _, hn⟩ :=
      checkField_integer_eq_ok hat ((storedForm_eq_ok_iff hat.plain harg).1 hstored).1
    exact ⟨n, hn⟩

/-- Beside a sequence, settled contents hold its length as its count. -/
theorem FieldValues.Settle.count (ht : t.WellFormed) (hgoal : goal.Settle names t args')
    (hf : t.fields[index]? = some f) {count : Nat} (ha : f.arity = .counted count) {g : Field}
    (hg : t.IntegerAt count g) {items : List Value} (hitems : goal.get f.name = .sequence items) :
    ∃ n, goal.get g.name = .single (.integer n) ∧ n.toInt = items.length := by
  obtain ⟨n, hn⟩ := hg.integer_of_settled (hgoal count g hg.found)
  have hl := (ht.fields f (List.mem_of_getElem? hf)).plain_of_counted ha
  have hsettled := hgoal index f hf
  rw [hitems] at hsettled
  have harg : argument args' index ≠ .nil := by
    intro hnil
    rw [hnil] at hsettled
    exact f.default_ne_sequence items (hsettled.unique .default).symm
  have hcount := ((storedForm_eq_ok_iff hl harg).1 (hsettled.storedForm_eq harg)).2 items rfl
  exact ⟨n, hn, (checkCount_integer_iff ha hg hn _).1 hcount⟩

/-- Where a count is left to a sequence, the length of this sequence passes the check of the count. -/
theorem FieldValues.Settle.checkField_length (ht : t.WellFormed) (hargs : Completes t args args')
    (hgoal : goal.Settle names t args') (hf : t.fields[index]? = some f) {count : Nat}
    (ha : f.arity = .counted count) {g : Field} (hg : t.IntegerAt count g)
    (hunset : argument args count = .nil) {items : List Value}
    (hitems : goal.get f.name = .sequence items) :
    checkField names t g (.single (.integer (Int64.ofNat items.length))) =
      .ok (goal.get g.name) := by
  have hwf := ht.fields f (List.mem_of_getElem? hf)
  obtain ⟨n, hn, hlength⟩ := hgoal.count ht hf ha hg hitems
  have hinitial := (hgoal index f hf).initialContent_eq (hwf.plain_of_counted ha)
  rw [hitems, hargs.argument_eq_of_luaType ht hf (hwf.ne_integer_of_counted ha)] at hinitial
  obtain ⟨given, hgiven⟩ := sequence_of_initialContent hwf (hwf.plain_of_counted ha) hinitial
  obtain ⟨leading, hleading⟩ := leadingLength?_isSome hf ha hgiven
  have hstored := (hgoal count g hg.found).initialContent_eq hg.plain
  have hcompleted : argument args' count = .single (.integer (Int64.ofNat leading)) := by
    rw [hargs.argument_eq hg.found]
    unfold completedArgument
    rw [if_pos hunset, hleading]
  rw [hcompleted, initialContent_of_ne fun h => Value.noConfusion (Content.single.inj h)] at hstored
  -- the sequence need not be the first one, but the count says that both are equally long
  obtain ⟨m, hm, hsame⟩ := checkField_integer_eq_ok hg hstored
  cases hm
  cases hn.symm.trans hsame
  have hofNat : Int64.ofNat items.length = Int64.ofNat leading := by
    rw [← Int64.ofInt_toInt (Int64.ofNat leading), hlength]
    rfl
  rw [hofNat]
  exact hstored

/-- Contents agree with others, except in the conditional fields and the counts that are not known. -/
def AgreesButCounts (t : Table) (args : List Content) (derived : List Nat)
    (values goal : FieldValues) : Prop :=
  ∀ index f, t.fields[index]? = some f → f.luaType ≠ .conditional →
    (f.luaType = .integer → Known args derived index) → values.get f.name = goal.get f.name

/-- The second pass goes on, with contents that agree in one more count if it fills in one. -/
theorem AgreesButCounts.step {derived : List Nat} {values : FieldValues} (ht : t.WellFormed)
    (hargs : Completes t args args') (hgoal : goal.Settle names t args')
    (h : AgreesButCounts t args derived values goal) (hf : f ∈ t.fields) :
    ∃ derived' values', CountStep names t args f derived values derived' values' ∧
      AgreesButCounts t args derived' values' goal := by
  have hwf := ht.fields f hf
  obtain ⟨index, hindex⟩ := List.mem_iff_getElem?.1 hf
  by_cases hseq : ∃ count items, f.arity = .counted count ∧ values.get f.name = .sequence items
  · obtain ⟨count, items, ha, hitems⟩ := hseq
    obtain ⟨g, hg⟩ := hwf.counter ha
    have hheld : goal.get f.name = .sequence items := by
      rw [← hitems]
      exact (h index f hindex (hwf.plain_of_counted ha)
        fun hinteger => absurd hinteger (hwf.ne_integer_of_counted ha)).symm
    by_cases hknown : Known args derived count
    · obtain ⟨n, hn, hlength⟩ := hgoal.count ht hindex ha hg hheld
      rw [← h count g hg.found hg.plain fun _ => hknown] at hn
      exact ⟨_, _, .compare ha hitems hknown ((checkCount_integer_iff ha hg hn _).2 hlength), h⟩
    · have hunset : argument args count = .nil := by
        by_contra hgiven
        exact hknown (Or.inl (Content.not_isNil_iff.2 hgiven))
      have hstored := hgoal.checkField_length ht hargs hindex ha hg hunset hheld
      refine ⟨_, _, .derive ha hitems hknown hg hstored, fun other k hk hl hcount => ?_⟩
      by_cases hname : k.name = g.name
      · rw [ht.eq_of_name (List.mem_of_getElem? hk) hg.mem hname, FieldValues.get_set_self]
      · rw [FieldValues.get_set_of_ne values hname]
        refine h other k hk hl fun hinteger => (hcount hinteger).imp id fun hmem => ?_
        refine (List.mem_cons.1 hmem).resolve_left fun heq => hname ?_
        rw [heq] at hk
        rw [hg.eq_of_found hk]
  · exact ⟨_, _, .pass fun count items ha hitems => hseq ⟨count, items, ha, hitems⟩, h⟩

theorem AgreesButCounts.fillCounts_isOk {derived : List Nat} {values : FieldValues}
    {fields : List Field} (ht : t.WellFormed) (hargs : Completes t args args')
    (hgoal : goal.Settle names t args') (h : AgreesButCounts t args derived values goal)
    (hfields : ∀ f ∈ fields, f ∈ t.fields) :
    ∃ second, fillCounts names t args fields derived values = .ok second := by
  induction fields generalizing derived values with
  | nil => exact ⟨values, rfl⟩
  | cons f fields ih =>
    rw [List.forall_mem_cons] at hfields
    obtain ⟨derived', values', hstep, h'⟩ := h.step ht hargs hgoal hfields.1
    obtain ⟨second, hsecond⟩ := ih h' hfields.2
    exact ⟨second,
      (fillCounts_cons_eq_ok_iff (ht.fields f hfields.1)).2 ⟨derived', values', hstep, hsecond⟩⟩

theorem PlainFilled.agreesButCounts (ht : t.WellFormed) (hargs : Completes t args args')
    (hgoal : goal.Settle names t args') (hfirst : PlainFilled names t args first) :
    AgreesButCounts t args [] first goal := by
  intro index f hf hl hcount
  have hinitial := hfirst.plain index f hf hl
  have hsame : argument args' index = argument args index := by
    by_cases hinteger : f.luaType = .integer
    · rw [hargs.argument_eq hf]
      have hgiven := (hcount hinteger).resolve_right List.not_mem_nil
      exact completedArgument_of_ne (Content.not_isNil_iff.1 hgiven)
    · exact hargs.argument_eq_of_luaType ht hf hinteger
  rw [← hsame, (hgoal index f hf).initialContent_eq hl] at hinitial
  exact (Except.ok.inj hinitial).symm

/-- The constructor ends well if the completed arguments can be settled. -/
theorem construct_of_settle_completed (ht : t.WellFormed) (hcountable : Countable args)
    (hargs : Completes t args args') (hgoal : goal.Settle names t args') :
    ∃ out, construct names t args = .ok out := by
  obtain ⟨first, hfirst⟩ : ∃ first, fillPlain names t t.fields args .empty = .ok first := by
    refine fillPlain_isOk fun index f hf hl => ?_
    by_cases harg : argument args index = .nil
    · rw [harg]
      exact ⟨f.default, rfl⟩
    · rw [← completedArgument_of_ne harg, ← hargs.argument_eq hf]
      exact ⟨_, (hgoal index f hf).initialContent_eq hl⟩
  have hfilled := plainFilled_of_fillPlain ht hfirst
  obtain ⟨second, hsecond⟩ :=
    (hfilled.agreesButCounts ht hargs hgoal).fillCounts_isOk ht hargs hgoal fun _ h => h
  obtain ⟨out, hthird⟩ : ∃ out, fillConditional names t t.fields args second = .ok out := by
    refine fillConditional_isOk ht (fun _ hf => hf) fun index f hf hl harg => ?_
    have hsame := hargs.argument_eq_of_luaType ht hf (by rw [hl]; decide)
    have hstored := (hgoal index f hf).storedForm_eq (hsame.symm ▸ harg)
    rw [hsame, storedForm_of_conditional hl harg, map_eq_ok_iff] at hstored
    obtain ⟨v, hv, _⟩ := hstored
    refine ⟨v, (checkConditional_congr _ fun other k hd hk => ?_).trans hv⟩
    obtain ⟨g, hg⟩ := (ht.fields f (List.mem_of_getElem? hf)).integerAt_of_dependsOn hd
    rw [hg.eq_of_found hk]
    exact hg.settled_unique ht
      (hfilled.settled_completed ht hsecond hargs hcountable hg.found hg.plain)
      (hgoal other g hg.found)
  exact ⟨out, bind_eq_ok_iff.2 ⟨first, hfirst, bind_eq_ok_iff.2 ⟨second, hsecond, hthird⟩⟩⟩

/-! ## The constructor -/

theorem Completes.countsGiven (ht : t.WellFormed) (hargs : Completes t args args') :
    CountsGiven t args' := by
  intro index f count items hf ha harg
  have hwf := ht.fields f (List.mem_of_getElem? hf)
  obtain ⟨g, hg⟩ := hwf.counter ha
  rw [hargs.argument_eq_of_luaType ht hf (hwf.ne_integer_of_counted ha)] at harg
  rw [hargs.argument_eq hg.found]
  by_cases hunset : argument args count = .nil
  · obtain ⟨length, hlength⟩ := leadingLength?_isSome hf ha harg
    unfold completedArgument
    rw [if_pos hunset, hlength]
    exact fun h => Value.noConfusion (Content.single.inj h)
  · rw [completedArgument_of_ne hunset]
    exact hunset

/-- Leaving counts out is the same as giving the lengths that stand for them. -/
theorem construct_completes (names : RecordNames) (ht : t.WellFormed) (hcountable : Countable args)
    (hargs : Completes t args args') :
    ((∃ out, construct names t args = .ok out) ↔ ∃ out, construct names t args' = .ok out) ∧
      ∀ out out', construct names t args = .ok out → construct names t args' = .ok out' →
        ∀ f ∈ t.fields, out.get f.name = out'.get f.name := by
  obtain ⟨hiff, hsettles⟩ := construct_settles names ht (hargs.countsGiven ht)
  have hcompleted : ∀ out, construct names t args = .ok out → out.Settle names t args' :=
    fun _ h => settle_of_construct_completed ht hcountable hargs h
  constructor
  · rw [hiff]
    constructor
    · intro h
      obtain ⟨out, h⟩ := h
      exact ⟨out, hcompleted out h⟩
    · intro h
      obtain ⟨goal, hgoal⟩ := h
      exact construct_of_settle_completed ht hcountable hargs hgoal
  · intro out out' h h' f hf
    exact (hcompleted out h).unique ht (hsettles out' h') hf

end

end RecordTables
