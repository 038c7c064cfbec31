import RecordTables.Proofs.Record.Conforming
import RecordTables.Record.Construct

/-!
What a new record holds.

Each pass of the constructor has one lemma, which says what the pass establishes and what it leaves
alone.  The passes rest on one another: a count is not filled in twice, and a conditional field is
filled when its selector has its last value.  `construct_yields` puts them together.
-/

namespace RecordTables

/-- The contents of a record whose conditional fields are still to be filled. -/
structure FieldValues.Pending (names : RecordNames) (t : Table) (values : FieldValues) : Prop where
  plain : ∀ f ∈ t.fields, f.luaType ≠ .conditional → f.HoldsPlain names (values.get f.name)
  unset : ∀ f ∈ t.fields, f.luaType = .conditional → values.get f.name = .nil

theorem FieldValues.Pending.conform {names : RecordNames} {t : Table} {values : FieldValues}
    (h : values.Pending names t) : values.Conform names t := by
  intro f hf
  constructor
  · exact h.plain f hf
  · intro hl
    rw [h.unset f hf hl]
    exact .unset

/-! ## The first pass -/

theorem Field.default_ne_sequence (f : Field) (items : List Value) : f.default ≠ .sequence items := by
  unfold Field.default
  split <;> nofun

theorem initialContent_yields (names : RecordNames) {t : Table} {f : Field} (hf : f.WellFormed t)
    (hl : f.luaType ≠ .conditional) (arg : Content) :
    Yields (fun c => f.HoldsPlain names c ∧ arg.LengthFrom c) (initialContent names t f arg) := by
  unfold initialContent
  by_cases hnil : arg.isNil = true
  · rw [if_pos hnil]
    exact ⟨hf.holdsPlain_default hl, fun out h => absurd h (f.default_ne_sequence out)⟩
  · rw [if_neg hnil]
    exact checkField_yields names hf hl arg

/-- Every sequence among contents is as long as one among the arguments. -/
def LengthsFrom (args : List Content) (c : Content) : Prop :=
  ∀ out, c = .sequence out → ∃ items, .sequence items ∈ args ∧ out.length = items.length

theorem Content.LengthFrom.headD {args : List Content} {c : Content}
    (h : (args.headD .nil).LengthFrom c) : LengthsFrom args c := by
  intro out hout
  obtain ⟨items, hitems, hlength⟩ := h out hout
  cases args with
  | nil => cases hitems
  | cons arg args =>
    have harg : arg = .sequence items := hitems
    exact ⟨items, harg ▸ List.mem_cons_self, hlength⟩

theorem LengthsFrom.of_tail {args : List Content} {c : Content} (h : LengthsFrom args.tail c) :
    LengthsFrom args c := by
  intro out hout
  obtain ⟨items, hitems, hlength⟩ := h out hout
  exact ⟨items, List.mem_of_mem_tail hitems, hlength⟩

/-- The first pass fills the fields it goes through, except for the conditional ones. -/
theorem fillPlain_yields (names : RecordNames) {t : Table} {fields : List Field}
    (hwf : ∀ f ∈ fields, f.WellFormed t) (hnames : (fields.map (·.name)).Nodup)
    (args : List Content) (values : FieldValues) :
    Yields (fun out =>
        (∀ f ∈ fields, f.luaType ≠ .conditional →
          f.HoldsPlain names (out.get f.name) ∧ LengthsFrom args (out.get f.name)) ∧
        ∀ name, (∀ f ∈ fields, f.luaType ≠ .conditional → f.name ≠ name) →
          out.get name = values.get name)
      (fillPlain names t fields args values) := by
  induction fields generalizing args values with
  | nil => exact ⟨fun _ h => absurd h List.not_mem_nil, fun _ _ => rfl⟩
  | cons f fields ih =>
    rw [List.map_cons, List.nodup_cons] at hnames
    rw [List.forall_mem_cons] at hwf
    have ih := ih hwf.2 hnames.2 args.tail
    by_cases hl : f.luaType = .conditional
    · rw [fillPlain, if_pos hl]
      refine (ih values).mono fun out hout => ⟨?_, fun name hname => ?_⟩
      · rw [List.forall_mem_cons]
        refine ⟨fun hplain => absurd hl hplain, fun g hg hplain => ?_⟩
        have h := hout.1 g hg hplain
        exact ⟨h.1, h.2.of_tail⟩
      · exact hout.2 name fun g hg => hname g (List.mem_cons_of_mem f hg)
    · rw [fillPlain, if_neg hl]
      have hinitial := initialContent_yields names hwf.1 hl (args.headD .nil)
      cases hx : initialContent names t f (args.headD .nil) with
      | error refusal => exact hinitial.of_error hx
      | ok content =>
        obtain ⟨hholds, hlength⟩ := hinitial.of_ok hx
        refine (ih (values.set f.name content)).mono fun out hout => ⟨?_, fun name hname => ?_⟩
        · rw [List.forall_mem_cons]
          constructor
          · intro _
            -- no later field has the name of this one
            have hkeep : out.get f.name = content := by
              rw [hout.2 f.name fun g hg _ heq => hnames.1 (List.mem_map.2 ⟨g, hg, heq⟩)]
              exact FieldValues.get_set_self values f.name content
            rw [hkeep]
            exact ⟨hholds, hlength.headD⟩
          · intro g hg hplain
            have h := hout.1 g hg hplain
            exact ⟨h.1, h.2.of_tail⟩
        · rw [hout.2 name fun g hg => hname g (List.mem_cons_of_mem f hg)]
          exact FieldValues.get_set_of_ne values (hname f List.mem_cons_self hl).symm content

/-! ## The second pass -/

/-- A count is known if it was given or filled in. -/
def Known (args : List Content) (derived : List Nat) (index : Nat) : Prop :=
  (!(argument args index).isNil) = true ∨ index ∈ derived

/-- What the second pass establishes for the fields it goes through, given the contents before. -/
structure CountsFilled (names : RecordNames) (t : Table) (args : List Content)
    (fields : List Field) (derived : List Nat) (values out : FieldValues) : Prop where
  pending : out.Pending names t
  others : ∀ f ∈ t.fields, f.luaType ≠ .integer → out.get f.name = values.get f.name
  known : ∀ index g, t.fields[index]? = some g → Known args derived index →
    out.get g.name = values.get g.name
  counts : ∀ f ∈ fields, f.CountMatches t out (out.get f.name)

theorem FieldValues.Pending.set_integer {names : RecordNames} {t : Table} (ht : t.WellFormed)
    {values : FieldValues} (h : values.Pending names t) {index : Nat} {g : Field}
    (hg : t.IntegerAt index g) {c : Content} (hc : g.HoldsPlain names c) :
    (values.set g.name c).Pending names t := by
  constructor
  · intro f hf hl
    by_cases hname : f.name = g.name
    · rw [ht.eq_of_name hf hg.mem hname, FieldValues.get_set_self]
      exact hc
    · rw [FieldValues.get_set_of_ne values hname]
      exact h.plain f hf hl
  · intro f hf hl
    have hname : f.name ≠ g.name := by
      refine ht.name_ne hf hg.mem ?_
      rw [hl]
      exact hg.plain.symm
    rw [FieldValues.get_set_of_ne values hname]
    exact h.unset f hf hl

section

variable {names : RecordNames} {t : Table} {args : List Content} {fields : List Field}
  {derived : List Nat} {values out : FieldValues} {f : Field}

/-- A field whose count need not be filled in leaves everything to the fields after it. -/
theorem CountsFilled.cons (h : CountsFilled names t args fields derived values out)
    (hf : f.CountMatches t out (out.get f.name)) :
    CountsFilled names t args (f :: fields) derived values out :=
  ⟨h.pending, h.others, h.known, List.forall_mem_cons.2 ⟨hf, h.counts⟩⟩

/-- A count that is known stays what it is until the end, so the sequence it counts keeps it. -/
theorem CountsFilled.countMatches (h : CountsFilled names t args fields derived values out)
    (hf : f ∈ t.fields) (hwf : f.WellFormed t)
    (hknown : ∀ index, f.arity = .counted index → Known args derived index)
    (hmatch : f.CountMatches t values (values.get f.name)) :
    f.CountMatches t out (out.get f.name) := by
  intro index g items ha hg hitems
  rw [h.others f hf (hwf.ne_integer_of_counted ha)] at hitems
  rw [h.known index g hg.found (hknown index ha)]
  exact hmatch index g items ha hg hitems

/-- A count that was not known is filled in, and known from then on. -/
theorem CountsFilled.derive (ht : t.WellFormed) {index : Nat} {g : Field}
    (hg : t.IntegerAt index g) {items : List Value} (hf : f ∈ t.fields)
    (ha : f.arity = .counted index) (hitems : values.get f.name = .sequence items)
    (hunknown : ¬Known args derived index)
    (h : CountsFilled names t args fields (index :: derived)
      (values.set g.name (.single (.integer (Int64.ofNat items.length)))) out) :
    CountsFilled names t args (f :: fields) derived values out := by
  have hwf := ht.fields f hf
  have hother : ∀ k ∈ t.fields, k.luaType ≠ .integer → k.name ≠ g.name := by
    intro k hk hl
    refine ht.name_ne hk hg.mem ?_
    rw [hg.luaType]
    exact hl
  have hkept := FieldValues.get_set_of_ne values (hother f hf (hwf.ne_integer_of_counted ha))
    (.single (.integer (Int64.ofNat items.length)))
  constructor
  · exact h.pending
  · intro k hk hl
    rw [h.others k hk hl]
    exact FieldValues.get_set_of_ne values (hother k hk hl) _
  · intro i k hk hknown
    have hne : k.name ≠ g.name := by
      intro heq
      rw [ht.index_eq hk hg.found heq] at hknown
      exact hunknown hknown
    rw [h.known i k hk (hknown.imp id (List.mem_cons_of_mem index))]
    exact FieldValues.get_set_of_ne values hne _
  · refine List.forall_mem_cons.2 ⟨h.countMatches hf hwf ?_ ?_, h.counts⟩
    · intro i hi
      rw [ha] at hi
      cases hi
      exact Or.inr List.mem_cons_self
    · intro i k items' hi hk hitems'
      rw [ha] at hi
      cases hi
      rw [hkept, hitems] at hitems'
      cases hitems'
      rw [hg.eq_of_found hk.found]
      exact FieldValues.get_set_self values g.name _

end

/-- The second pass leaves each sequence it goes through with the count that says its length. -/
theorem fillCounts_yields (names : RecordNames) {t : Table} (ht : t.WellFormed)
    (args : List Content) {fields : List Field} (hfields : ∀ f ∈ fields, f ∈ t.fields)
    (derived : List Nat) {values : FieldValues} (hv : values.Pending names t) :
    Yields (CountsFilled names t args fields derived values)
      (fillCounts names t args fields derived values) := by
  induction fields generalizing derived values with
  | nil => exact ⟨hv, fun _ _ _ => rfl, fun _ _ _ _ => rfl, fun _ h => absurd h List.not_mem_nil⟩
  | cons f fields ih =>
    rw [List.forall_mem_cons] at hfields
    obtain ⟨hf, hfields⟩ := hfields
    have hwf := ht.fields f hf
    rw [fillCounts]
    split
    · next index items ha hitems =>
      obtain ⟨g, hg⟩ := hwf.counter ha
      by_cases hknown : (!(argument args index).isNil) = true ∨ index ∈ derived
      · rw [if_pos hknown]
        have hcheck := checkCount_yields hwf hv.conform items
        cases hx : checkCount t f values items.length with
        | error refusal => exact hcheck.of_error hx
        | ok _ =>
          have hmatch := hcheck.of_ok hx
          rw [← hitems] at hmatch
          refine (ih hfields derived hv).mono fun out hout => ?_
          refine hout.cons (hout.countMatches hf hwf (fun i hi => ?_) hmatch)
          rw [ha] at hi
          cases hi
          exact hknown
      · rw [if_neg hknown, hg.fieldAt]
        have hcheck := checkField_yields names (ht.fields g hg.mem) hg.plain
          (.single (.integer (Int64.ofNat items.length)))
        simp only
        cases hx : checkField names t g (.single (.integer (Int64.ofNat items.length))) with
        | error refusal => exact hcheck.of_error hx
        | ok count =>
          obtain ⟨n, hn, hcount⟩ := checkField_integer_eq_ok hg hx
          cases hn
          subst hcount
          have hpending := hv.set_integer ht hg (hcheck.of_ok hx).1
          refine (ih hfields (index :: derived) hpending).mono fun out hout => ?_
          exact hout.derive ht hg hf ha hitems hknown
    · next hnot =>
      refine (ih hfields derived hv).mono fun out hout => hout.cons ?_
      intro index g items ha hg hitems
      rw [hout.others f hf (hwf.ne_integer_of_counted ha)] at hitems
      exact absurd hitems (hnot index items ha)

/-! ## The third pass -/

/-- What a field may hold beside other contents depends on its selector alone. -/
theorem Field.Holds.congr {names : RecordNames} {t : Table} {values values' : FieldValues}
    {f : Field} {c : Content} (h : f.Holds names t values c)
    (hselector : ∀ condition g, f.condition = some condition →
      t.fields[condition.field]? = some g → values'.get g.name = values.get g.name) :
    f.Holds names t values' c := by
  refine ⟨h.plain, fun hl => ?_⟩
  cases h.chosen hl with
  | unset => exact .unset
  | chosen hc hg hn hcase hv =>
    refine .chosen hc hg ?_ hcase hv
    rw [hselector _ _ hc hg]
    exact hn

/-- Setting a conditional field leaves the others what they may hold, for it is no selector. -/
theorem FieldValues.Conform.set_conditional {names : RecordNames} {t : Table} (ht : t.WellFormed)
    {values : FieldValues} (h : values.Conform names t) {f : Field} (hf : f ∈ t.fields)
    (hl : f.luaType = .conditional) {c : Content} (hc : f.HoldsChosen names t values c) :
    (values.set f.name c).Conform names t := by
  intro g hg
  have hholds : g.Holds names t values ((values.set f.name c).get g.name) := by
    by_cases hname : g.name = f.name
    · rw [ht.eq_of_name hg hf hname, FieldValues.get_set_self]
      exact ⟨fun hplain => absurd hl hplain, fun _ => hc⟩
    · rw [FieldValues.get_set_of_ne values hname]
      exact h g hg
  refine hholds.congr fun condition k hcond hk => ?_
  obtain ⟨⟨k', hk'⟩, _⟩ := (ht.fields g hg).condition hcond
  rw [hk'.eq_of_found hk]
  refine FieldValues.get_set_of_ne values (ht.name_ne hk'.mem hf ?_) c
  rw [hl]
  exact hk'.plain

/-- The third pass fills conditional fields and leaves the others. -/
theorem fillConditional_yields (names : RecordNames) {t : Table} (ht : t.WellFormed)
    {fields : List Field} (hfields : ∀ f ∈ fields, f ∈ t.fields) (args : List Content)
    {values : FieldValues} (hv : values.Conform names t) :
    Yields (fun out => out.Conform names t ∧
        ∀ f ∈ t.fields, f.luaType ≠ .conditional → out.get f.name = values.get f.name)
      (fillConditional names t fields args values) := by
  induction fields generalizing args values with
  | nil => exact ⟨hv, fun _ _ _ => rfl⟩
  | cons f fields ih =>
    rw [List.forall_mem_cons] at hfields
    rw [fillConditional]
    by_cases hcond : f.luaType = .conditional ∧ (!(args.headD .nil).isNil) = true
    · rw [if_pos hcond]
      have hcheck := checkConditional_yields (ht.fields f hfields.1) hcond.1 hv (args.headD .nil)
      cases hx : checkConditional names t f values (args.headD .nil) with
      | error refusal => exact hcheck.of_error hx
      | ok v =>
        have hset := hv.set_conditional ht hfields.1 hcond.1 (hcheck.of_ok hx)
        refine (ih hfields.2 args.tail hset).mono fun out hout => ⟨hout.1, fun g hg hl => ?_⟩
        rw [hout.2 g hg hl]
        refine FieldValues.get_set_of_ne values (ht.name_ne hg hfields.1 ?_) _
        rw [hcond.1]
        exact hl
    · rw [if_neg hcond]
      exact ih hfields.2 args.tail hv

/-- What a new record holds: in every field what it may hold, counts that say how long the sequences
are, and sequences as long as those that were given. -/
theorem construct_yields (names : RecordNames) {t : Table} (ht : t.WellFormed)
    (args : List Content) :
    Yields (fun values => values.Conform names t ∧
        (∀ f ∈ t.fields, f.CountMatches t values (values.get f.name)) ∧
        ∀ f ∈ t.fields, f.luaType ≠ .conditional → LengthsFrom args (values.get f.name))
      (construct names t args) := by
  refine (fillPlain_yields names ht.fields ht.names args .empty).bind fun first hfirst => ?_
  have hpending : first.Pending names t := by
    constructor
    · intro f hf hl
      exact (hfirst.1 f hf hl).1
    · intro f hf hl
      rw [hfirst.2 f.name fun g hg hplain => ht.name_ne hg hf (by rw [hl]; exact hplain)]
      rfl
  refine (fillCounts_yields names ht args (fun _ h => h) [] hpending).bind fun second hsecond => ?_
  have hthird := fillConditional_yields names ht (fun _ h => h) args hsecond.pending.conform
  refine hthird.mono fun out hout => ⟨hout.1, fun f hf => ?_, fun f hf hl => ?_⟩
  · intro index g items ha hg hitems
    rw [hout.2 f hf ((ht.fields f hf).plain_of_counted ha)] at hitems
    rw [hout.2 g hg.mem hg.plain]
    exact hsecond.counts f hf index g items ha hg hitems
  · rw [hout.2 f hf hl]
    by_cases hinteger : f.luaType = .integer
    · -- an integer field holds no sequence
      intro items hitems
      have hplain := hsecond.pending.plain f hf hl
      rw [hitems] at hplain
      cases hplain with
      | sequence ha =>
        cases ht.fields f hf with
        | single hone => exact absurd hone ha
        | sequence _ _ _ htable =>
          rw [hinteger] at htable
          cases htable
        | conditional hone => exact absurd hone ha
    · rw [hsecond.others f hf hinteger]
      exact (hfirst.1 f hf hl).2

end RecordTables
