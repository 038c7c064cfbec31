import RecordTables.Proofs.Instance.Run

/-!
Counted sequences and their counts.

The constructor and the setter of a sequence compare its length with the count beside it.  The setter
of the count does not look back at the sequences that it counts, and so a record may come to hold one
of another length.  `counts_followed_iff` says that this is the only way: sequences follow their
counts throughout a run exactly if no count is set apart from a sequence that the record holds.
-/

namespace RecordTables

/-- A counted field holds nothing, or a sequence as long as the count of its record says. -/
def Field.FollowsCount (t : Table) (values : FieldValues) (f : Field) : Prop :=
  ∀ index g, f.arity = .counted index → t.fields[index]? = some g →
    values.get f.name = .nil ∨ ∃ items n, values.get f.name = .sequence items ∧
      values.get g.name = .single (.integer n) ∧ n.toInt = items.length

/-- The counted fields of all records follow their counts. -/
def Records.FollowCounts (rs : Records) : Prop :=
  ∀ r record, rs.get? r = some record →
    ∀ f ∈ record.table.fields, f.FollowsCount record.table record.values

/-- A request sets a count to a number that is not the length of a sequence which the record holds
under this count, and is granted. -/
def Request.Detaches (rs : Records) : Request → Prop
  | .create _ _ => False
  | .set t index r c => (∃ rs', rs.answer (.set t index r c) = .ok rs') ∧
      ∃ record f g items n, rs.get? r = some record ∧ f ∈ t.fields ∧ f.arity = .counted index ∧
        t.fields[index]? = some g ∧ record.values.get f.name = .sequence items ∧
        c.integer? (g.type = some (.scalar .bool)) = some n ∧ n.toInt ≠ items.length

def Move.Detaches (i : Instance) (m : Move) : Prop :=
  ∃ q, m.request? i = some q ∧ q.Detaches i.records

/-! ## One record -/

section

variable {names : RecordNames} {t : Table} {values : FieldValues} {f : Field}

theorem Field.WellFormed.integerAt {index : Nat} {g : Field} (hf : f.WellFormed t)
    (ha : f.arity = .counted index) (hg : t.fields[index]? = some g) : t.IntegerAt index g := by
  obtain ⟨g', hg'⟩ := hf.counter ha
  rw [hg'.eq_of_found hg]
  exact hg'

theorem Field.HoldsPlain.counted {c : Content} (h : f.HoldsPlain names c) {index : Nat}
    (ha : f.arity = .counted index) : c = .nil ∨ ∃ items, c = .sequence items := by
  cases h with
  | unset => exact Or.inl rfl
  | single hone =>
    rw [ha] at hone
    cases hone
  | sequence => exact Or.inr ⟨_, rfl⟩

theorem FieldValues.Conform.counted (hv : values.Conform names t) (hf : f ∈ t.fields)
    (hwf : f.WellFormed t) {index : Nat} (ha : f.arity = .counted index) :
    values.get f.name = .nil ∨ ∃ items, values.get f.name = .sequence items := by
  exact ((hv f hf).plain (hwf.plain_of_counted ha)).counted ha

/-- A count that was derived from a length, or compared with it, is this length. -/
theorem toInt_ofNat_length {items : List Value} (h : items.length ≤ LuaTable.lengthLimit) :
    (Int64.ofNat items.length).toInt = items.length := by
  refine Int64.toInt_ofNat_of_lt ?_
  unfold LuaTable.lengthLimit at h
  omega

/-- New contents follow their counts, if the sequences come from Lua tables. -/
theorem Field.CountMatches.follows (hv : values.Conform names t) (hf : f ∈ t.fields)
    (hwf : f.WellFormed t) (h : f.CountMatches t values (values.get f.name))
    (hshort : (values.get f.name).Short) :
    f.FollowsCount t values := by
  intro index g ha hg
  rcases hv.counted hf hwf ha with hnil | ⟨items, hitems⟩
  · exact Or.inl hnil
  · refine Or.inr ⟨items, _, hitems, h index g items ha (hwf.integerAt ha hg) hitems, ?_⟩
    exact toInt_ofNat_length (hshort items hitems)

theorem LengthsFrom.short {args : List Content} {c : Content} (h : LengthsFrom args c)
    (hargs : ∀ arg ∈ args, arg.Short) : c.Short := by
  intro out hout
  obtain ⟨items, hitems, hlength⟩ := h out hout
  rw [hlength]
  exact hargs _ hitems items rfl

theorem Content.LengthFrom.short {given c : Content} (h : given.LengthFrom c)
    (hgiven : given.Short) : c.Short := by
  intro out hout
  obtain ⟨items, hitems, hlength⟩ := h out hout
  rw [hlength]
  exact hgiven items hitems

/-- A single integer field stores the integer that it is set to. -/
theorem storedForm_integer_eq_ok {index : Nat} {g : Field} (hg : t.IntegerAt index g)
    {c stored : Content} (h : storedForm names t g values c = .ok stored) :
    ∃ n, c.integer? (g.type = some (.scalar .bool)) = some n ∧ stored = .single (.integer n) := by
  unfold storedForm at h
  by_cases hnil : c.isNil = true
  · rw [if_pos hnil, hg.luaType] at h
    cases h
  · rw [if_neg hnil, if_neg hg.plain] at h
    split at h
    · cases h
    · next items hx =>
      obtain ⟨n, _, hitems⟩ := checkField_integer_eq_ok hg hx
      cases hitems
    · next content _ hx =>
      cases h
      exact checkField_integer_eq_ok hg hx

end

/-! ## One request -/

section

variable {s : TableSet} {rs : Records}

theorem Records.FollowCounts.push (h : rs.FollowCounts) {record : Record}
    (hrecord : ∀ f ∈ record.table.fields, f.FollowsCount record.table record.values) :
    (rs.push record).1.FollowCounts := by
  intro r found hr
  rcases Records.get?_push_eq_some hr with hold | rfl
  · exact h r found hold
  · exact hrecord

theorem Records.FollowCounts.put_iff (h : rs.FollowCounts) {r : RecordRef} {record : Record}
    (hr : rs.get? r = some record) (values : FieldValues) :
    (rs.put r { record with values := values }).FollowCounts ↔
      ∀ f ∈ record.table.fields, f.FollowsCount record.table values := by
  constructor
  · intro hput
    exact hput r _ (Records.get?_put_self _ (Records.index_lt_of_get? hr))
  · intro hvalues other found hother
    rcases Records.get?_put_eq_some hother with hold | ⟨_, rfl⟩
    · exact h other found hold
    · exact hvalues

section

variable {names : RecordNames} {t : Table} {values out : FieldValues} {index : Nat} {f g : Field}
  {c stored : Content}

theorem FieldSet.followsCount_self (hset : FieldSet names t f values c stored out)
    (ht : t.WellFormed) (hv : values.Conform names t) (hf : f ∈ t.fields) (hc : c.Short) :
    f.FollowsCount t out := by
  intro i g ha hg
  have hat := (ht.fields f hf).integerAt ha hg
  have hplain := (ht.fields f hf).plain_of_counted ha
  obtain ⟨hholds, hlength, hcount⟩ := (storedForm_yields (ht.fields f hf) hv c).of_ok hset.form
  rw [hset.self hplain, hset.others g hat.mem hat.plain (ht.counted_name_ne hf ha hat).symm]
  rcases (hholds.plain hplain).counted ha with hnil | ⟨items, hitems⟩
  · exact Or.inl hnil
  · refine Or.inr ⟨items, _, hitems, hcount i g items ha hat hitems, ?_⟩
    exact toInt_ofNat_length (hlength.short hc items hitems)

/-- A sequence follows a count that was set exactly if this is its length. -/
theorem FieldSet.followsCount_iff (hset : FieldSet names t g values c stored out)
    (ht : t.WellFormed) (hv : values.Conform names t) (hf : f ∈ t.fields)
    (ha : f.arity = .counted index) (hg : t.IntegerAt index g) :
    f.FollowsCount t out ↔ ∀ items n, values.get f.name = .sequence items →
      c.integer? (g.type = some (.scalar .bool)) = some n → n.toInt = items.length := by
  have hwf := ht.fields f hf
  have hkept := hset.others f hf (hwf.plain_of_counted ha) (ht.counted_name_ne hf ha hg)
  have hcount := hset.self hg.plain
  obtain ⟨n, hn, rfl⟩ := storedForm_integer_eq_ok hg hset.form
  constructor
  · intro h items m hitems hm
    rw [hn] at hm
    cases hm
    rcases h index g ha hg.found with hnil | ⟨items', n', hitems', hn', hlength⟩
    · rw [hkept, hitems] at hnil
      cases hnil
    · rw [hkept, hitems] at hitems'
      cases hitems'
      rw [hcount] at hn'
      cases hn'
      exact hlength
  · intro h i k hi hk
    rw [ha] at hi
    cases hi
    rw [hg.eq_of_found hk, hkept, hcount]
    rcases hv.counted hf hwf ha with hnil | ⟨items, hitems⟩
    · exact Or.inl hnil
    · exact Or.inr ⟨items, n, hitems, rfl, h items n hitems hn⟩

/-- A sequence beside which neither it nor its count was set follows the count as before. -/
theorem FieldSet.followsCount_of_ne {k : Field} (hset : FieldSet names t k values c stored out)
    (ht : t.WellFormed) (hf : f ∈ t.fields) (hfk : f.name ≠ k.name)
    (ha : f.arity = .counted index) (hg : t.IntegerAt index g) (hgk : g.name ≠ k.name)
    (h : f.FollowsCount t values) : f.FollowsCount t out := by
  intro i g' hi hg'
  rw [ha] at hi
  cases hi
  rw [hg.eq_of_found hg', hset.others f hf ((ht.fields f hf).plain_of_counted ha) hfk,
    hset.others g hg.mem hg.plain hgk]
  exact h index g ha hg.found

/-- What a setter leaves follows the counts exactly if the setter was not that of a count which it
set to another number than the length of a sequence. -/
theorem FieldSet.followCounts_iff {k : Field} (hset : FieldSet names t k values c stored out)
    (ht : t.WellFormed) (hv : values.Conform names t)
    (hfollow : ∀ f ∈ t.fields, f.FollowsCount t values) (hk : t.fields[index]? = some k)
    (hc : c.Short) :
    (∀ f ∈ t.fields, f.FollowsCount t out) ↔
      ¬∃ f g items n, f ∈ t.fields ∧ f.arity = .counted index ∧ t.fields[index]? = some g ∧
        values.get f.name = .sequence items ∧
        c.integer? (g.type = some (.scalar .bool)) = some n ∧ n.toInt ≠ items.length := by
  have hmem := List.mem_of_getElem? hk
  constructor
  · intro h hdetached
    obtain ⟨f, g, items, n, hf, ha, hg, hitems, hn, hlength⟩ := hdetached
    have hat := (ht.fields f hf).integerAt ha hg
    have hsame := hat.eq_of_found hk
    subst hsame
    exact hlength ((hset.followsCount_iff ht hv hf ha hat).1 (h f hf) items n hitems hn)
  · intro hattached f hf
    by_cases hfk : f.name = k.name
    · have hsame : f = k := ht.eq_of_name hf hmem hfk
      subst hsame
      exact hset.followsCount_self ht hv hf hc
    · intro i g ha hg
      have hat := (ht.fields f hf).integerAt ha hg
      by_cases hgk : g.name = k.name
      · have hsame : g = k := ht.eq_of_name hat.mem hmem hgk
        subst hsame
        have hindex : i = index := ht.index_eq hg hk rfl
        subst hindex
        refine (hset.followsCount_iff ht hv hf ha hat).2 (fun items n hitems hn => ?_) i g ha hg
        by_contra hlength
        exact hattached ⟨f, g, items, n, hf, ha, hg, hitems, hn, hlength⟩
      · exact hset.followsCount_of_ne ht hf hfk ha hat hgk (hfollow f hf) i g ha hg

end

/-- A request keeps counts followed exactly if it does not set one apart from a sequence. -/
theorem followCounts_serve_iff (hs : s.WellFormed) (hconform : rs.Conform s)
    (hfollow : rs.FollowCounts) {q : Request} (hq : q.Within s) :
    (rs.serve q).FollowCounts ↔ ¬q.Detaches rs := by
  cases q with
  | create t args =>
    refine ⟨fun _ h => h, fun _ => ?_⟩
    simp only [Records.serve, Records.answer]
    cases hx : rs.create t args with
    | error refusal => exact hfollow
    | ok out =>
      obtain ⟨values, rfl, hvalues, hcounts, hlengths⟩ :=
        (Records.create_yields hs hq.1 args).of_ok hx
      refine hfollow.push fun f hf => ?_
      have hwf := (hs.tables t hq.1).fields f hf
      intro index g ha hg
      have hshort := (hlengths f hf (hwf.plain_of_counted ha)).short hq.2
      exact (hcounts f hf).follows hvalues hf hwf hshort index g ha hg
  | set t index r c =>
    obtain ⟨ht, ⟨k, hk⟩, hc⟩ := hq
    have hset := Records.setField_yields hs hconform ht hk r c
    simp only [Records.serve, Records.answer, Request.Detaches]
    cases hx : rs.setField t index r c with
    | error refusal =>
      refine ⟨fun _ h => ?_, fun _ => hfollow⟩
      obtain ⟨⟨rs', hrs'⟩, _⟩ := h
      cases hrs'
    | ok out =>
      obtain ⟨record, values, stored, hr, htable, hout, _, hfieldSet⟩ := hset.of_ok hx
      subst htable
      have hiff := hfieldSet.followCounts_iff (hs.tables record.table ht)
        (hconform r record hr).2 (hfollow r record hr) hk hc
      simp only [Except.map, hout]
      rw [hfollow.put_iff hr, hiff, not_iff_not]
      constructor
      · intro h
        obtain ⟨f, g, items, n, h⟩ := h
        exact ⟨⟨_, rfl⟩, record, f, g, items, n, hr, h⟩
      · intro h
        obtain ⟨_, record', f, g, items, n, hr', h⟩ := h
        have hsame : record' = record := Option.some.inj (hr'.symm.trans hr)
        rw [hsame] at h
        exact ⟨f, g, items, n, h⟩

theorem followCounts_moved_iff (hs : s.WellFormed) {i : Instance} (hconform : i.records.Conform s)
    (hfollow : i.records.FollowCounts) {m : Move} (hm : m.Within s) :
    (i.moved m).records.FollowCounts ↔ ¬m.Detaches i := by
  rw [Instance.records_moved i hm]
  unfold Move.Detaches
  cases hq : m.request? i with
  | none => simp [hfollow]
  | some q =>
    simp only [Option.some.injEq, exists_eq_left']
    exact followCounts_serve_iff hs hconform hfollow (hm.request hq)

end

/-! ## Runs -/

theorem Records.followCounts_empty : Records.empty.FollowCounts := by
  intro r record h
  simp [Records.get?, Records.empty] at h

/-- Sequences follow their counts in every state of a run exactly if no move of the run sets a count
apart from a sequence that the record holds. -/
theorem counts_followed_iff {d : Declarations} {s : TableSet}
    (hs : TableSet.ofDeclarations d = .ok s) {moves : List Move} (hm : ∀ m ∈ moves, m.Within s) :
    (∀ before, before <+: moves → (Instance.created.after before).records.FollowCounts) ↔
      ∀ before m, before ++ [m] <+: moves → ¬m.Detaches (Instance.created.after before) := by
  have hwf := wellFormed_of_resolves hs
  have hstep : ∀ before m, before ++ [m] <+: moves →
      (Instance.created.after before).records.FollowCounts →
      ((Instance.created.after (before ++ [m])).records.FollowCounts ↔
        ¬m.Detaches (Instance.created.after before)) := by
    intro before m hmoves hfollow
    have hwithin : ∀ m' ∈ before ++ [m], m'.Within s := fun m' hm' => hm m' (hmoves.subset hm')
    have hconform := conform_after hwf fun m' hm' => hwithin m' (List.mem_append_left [m] hm')
    rw [Instance.after_append_singleton]
    exact followCounts_moved_iff hwf hconform hfollow
      (hwithin m (List.mem_append_right before List.mem_cons_self))
  constructor
  · intro hfollow before m hmoves
    have hbefore := hfollow before ((List.prefix_append before [m]).trans hmoves)
    exact (hstep before m hmoves hbefore).1 (hfollow _ hmoves)
  · intro hattached before
    induction before using List.reverseRecOn with
    | nil =>
      intro _
      exact Records.followCounts_empty
    | append_singleton before m ih =>
      intro hmoves
      have hbefore := ih ((List.prefix_append before [m]).trans hmoves)
      exact (hstep before m hmoves hbefore).2 (hattached before m hmoves)

theorem counts_followed_iff_node :
    TableSet.ofDeclarations nodeDeclarations = .ok nodeSet ∧ (∀ m ∈ nodeMoves, m.Within nodeSet) ∧
      ((∀ before, before <+: nodeMoves → (Instance.created.after before).records.FollowCounts) ↔
        ∀ before m, before ++ [m] <+: nodeMoves → ¬m.Detaches (Instance.created.after before)) :=
  have haccepted : TableSet.ofDeclarations nodeDeclarations = .ok nodeSet := rfl
  ⟨haccepted, nodeMoves_within, counts_followed_iff haccepted nodeMoves_within⟩

/-- The node of two bytes is told that it has one. -/
def detachingMoves : List Move :=
  nodeMoves ++ [nodeCall (.set 0) [.record ⟨0⟩, .integer 1]]

/-- A run after which a sequence of two items stands beside a count of one. -/
theorem count_detached :
    TableSet.ofDeclarations nodeDeclarations = .ok nodeSet ∧
      (∀ m ∈ detachingMoves, m.Within nodeSet) ∧
      ∃ record, (Instance.created.after detachingMoves).records.get? ⟨0⟩ = some record ∧
        record.values.get "n" = .single (.integer 1) ∧
        record.values.get "xs" = .sequence [.integer 7, .integer 8] ∧
        ¬∀ f ∈ record.table.fields, f.FollowsCount record.table record.values := by
  have hwithin : ∀ m ∈ detachingMoves, m.Within nodeSet := by
    intro m hm
    rcases List.mem_append.1 hm with hm | hm
    · exact nodeMoves_within m hm
    · rw [List.mem_singleton.1 hm]
      exact nodeCall_within (.set 0) ⟨_, rfl⟩ _
  refine ⟨rfl, hwithin, _, rfl, rfl, rfl, ?_⟩
  intro h
  rcases h _ (List.mem_cons_of_mem _ List.mem_cons_self) 0 _ rfl rfl with
    hnil | ⟨items, n, hitems, hn, hlength⟩
  · cases hnil
  · cases hitems
    cases hn
    cases hlength

end RecordTables
