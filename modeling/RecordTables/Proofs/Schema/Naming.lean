import Mathlib.Data.List.Nodup
import RecordTables.Proofs.Outcome
import RecordTables.Schema.Resolution

/-!
The names and tags of declarations.

`WellNamed` and `TableDecl.WellNamed` say what resolution asks of names and tags.  The checks succeed
exactly on what is well-named, which is `checkTableNames_nil_eq_ok_iff` for the tables of a document
and `checkNames_eq_ok_iff` for the fields of a table.
-/

namespace RecordTables

/-! ## Identifiers -/

/-- An ASCII letter. -/
def IsLetter (c : Char) : Prop := ('a' ≤ c ∧ c ≤ 'z') ∨ ('A' ≤ c ∧ c ≤ 'Z')

/-- An ASCII digit. -/
def IsDigit (c : Char) : Prop := '0' ≤ c ∧ c ≤ '9'

/-- An identifier of Lua: a letter or an underscore, then letters, digits and underscores, and no
keyword. -/
structure IsIdentifier (text : String) : Prop where
  chars : ∃ c cs, text.toList = c :: cs ∧ (IsLetter c ∨ c = '_') ∧
    ∀ d ∈ cs, IsLetter d ∨ IsDigit d ∨ d = '_'
  noKeyword : text ∉ keywords

theorem isAlpha_iff (c : Char) : c.isAlpha = true ↔ IsLetter c := by
  have halpha : c.isAlpha = true ↔ c.isUpper = true ∨ c.isLower = true := Bool.or_eq_true_iff
  have hupper : c.isUpper = true ↔ 'A' ≤ c ∧ c ≤ 'Z' := decide_eq_true_iff
  have hlower : c.isLower = true ↔ 'a' ≤ c ∧ c ≤ 'z' :=
    Bool.and_eq_true_iff.trans (and_congr decide_eq_true_iff decide_eq_true_iff)
  rw [halpha, hupper, hlower]
  exact or_comm

theorem isDigit_iff (c : Char) : c.isDigit = true ↔ IsDigit c := by
  simp only [Char.isDigit, IsDigit, Char.le_def, Bool.and_eq_true, decide_eq_true_eq]

theorem isNameStart_iff (c : Char) : isNameStart c = true ↔ IsLetter c ∨ c = '_' := by
  simp only [isNameStart, Bool.or_eq_true, decide_eq_true_eq, isAlpha_iff]

theorem isNameRest_iff (c : Char) :
    isNameRest c = true ↔ IsLetter c ∨ IsDigit c ∨ c = '_' := by
  simp only [isNameRest, Char.isAlphanum, Bool.or_eq_true, decide_eq_true_eq, isAlpha_iff,
    isDigit_iff, or_assoc]

theorem isName_iff (text : String) : isName text = true ↔ IsIdentifier text := by
  unfold isName
  split
  · next h =>
    constructor
    · intro hf
      cases hf
    · intro h
      obtain ⟨⟨c, cs, hc, _⟩, _⟩ := h
      rw [h] at hc
      cases hc
  · next c cs h =>
    simp only [Bool.and_eq_true, List.all_eq_true, decide_eq_true_eq, isNameStart_iff,
      isNameRest_iff]
    constructor
    · intro h
      obtain ⟨⟨hc, hcs⟩, hk⟩ := h
      exact ⟨⟨c, cs, h, hc, hcs⟩, hk⟩
    · intro h
      obtain ⟨⟨c', cs', h', hc, hcs⟩, hk⟩ := h
      rw [h] at h'
      cases h'
      exact ⟨⟨hc, hcs⟩, hk⟩

/-- An identifier has none of the characters that names do not go on with. -/
theorem IsIdentifier.not_mem {text : String} (h : IsIdentifier text) {c : Char}
    (hc : isNameRest c = false) : c ∉ text.toList := by
  obtain ⟨first, others, hlist, hfirst, hothers⟩ := h.chars
  rw [hlist]
  intro hmem
  have hname : isNameRest c = true := by
    rw [isNameRest_iff]
    rcases List.mem_cons.1 hmem with rfl | hmem
    · exact hfirst.imp_right Or.inr
    · exact hothers c hmem
  rw [hc] at hname
  cases hname

theorem IsIdentifier.exists_eq_cons {text : String} (h : IsIdentifier text) {c : Char}
    (hc : isNameRest c = false) : ∃ d cs, text.toList = d :: cs ∧ d ≠ c := by
  have hnone := h.not_mem hc
  obtain ⟨d, cs, hlist, _⟩ := h.chars
  refine ⟨d, cs, hlist, fun heq => ?_⟩
  rw [hlist, heq] at hnone
  exact hnone List.mem_cons_self

theorem not_isName_iff (text : String) : (!isName text) = true ↔ ¬IsIdentifier text := by
  rw [Bool.not_eq_true', ← Bool.not_eq_true, isName_iff]

/-! ## Distinct keys

The checks of names and tags go through a list with the elements before in hand.  `DistinctFrom`
is what such a check establishes of the rest of the list. -/

section Distinct

variable {α β : Type}

/-- The keys of a list differ from one another and from those of the elements before. -/
def DistinctFrom (key : α → β) (earlier l : List α) : Prop :=
  (l.map key).Nodup ∧ ∀ e ∈ earlier, ∀ a ∈ l, key e ≠ key a

theorem distinctFrom_nil (key : α → β) (earlier : List α) : DistinctFrom key earlier [] :=
  ⟨List.nodup_nil, fun _ _ _ h => absurd h List.not_mem_nil⟩

theorem distinctFrom_cons {key : α → β} {earlier l : List α} {a : α} :
    DistinctFrom key earlier (a :: l) ↔
      (∀ e ∈ earlier, key e ≠ key a) ∧ DistinctFrom key (a :: earlier) l := by
  simp only [DistinctFrom, List.map_cons, List.nodup_cons, List.mem_map, List.mem_cons]
  constructor
  · intro h
    obtain ⟨⟨hnew, hl⟩, hearlier⟩ := h
    refine ⟨fun e he => hearlier e he a (Or.inl rfl), hl, ?_⟩
    rintro e (rfl | he) b hb
    · exact fun heq => hnew ⟨b, hb, heq.symm⟩
    · exact hearlier e he b (Or.inr hb)
  · intro h
    obtain ⟨ha, hl, hearlier⟩ := h
    refine ⟨⟨?_, hl⟩, ?_⟩
    · intro h
      obtain ⟨b, hb, heq⟩ := h
      exact hearlier a (Or.inl rfl) b hb heq.symm
    · rintro e he b (rfl | hb)
      · exact ha e he
      · exact hearlier e (Or.inr he) b hb

theorem distinctFrom_nil_left {key : α → β} {l : List α} :
    DistinctFrom key [] l ↔ (l.map key).Nodup :=
  ⟨fun h => h.1, fun h => ⟨h, fun _ he => absurd he List.not_mem_nil⟩⟩

/-- Whether an earlier element has the key, as the checks ask it. -/
theorem not_any_key_iff [DecidableEq β] {key : α → β} {earlier : List α} {k : β} :
    ¬(earlier.any fun e => decide (key e = k)) = true ↔ ∀ e ∈ earlier, key e ≠ k := by
  simp

theorem find?_key_eq_some_iff [DecidableEq β] {key : α → β} {l : List α}
    (h : (l.map key).Nodup) {k : β} {a : α} :
    l.find? (fun b => decide (key b = k)) = some a ↔ a ∈ l ∧ key a = k := by
  constructor
  · intro hf
    exact ⟨List.mem_of_find?_eq_some hf, by simpa using List.find?_some hf⟩
  · intro h
    obtain ⟨ha, rfl⟩ := h
    cases hf : l.find? (fun b => decide (key b = key a)) with
    | none => simpa using List.find?_eq_none.1 hf a ha
    | some b =>
      have hb : key b = key a := by simpa using List.find?_some hf
      rw [List.inj_on_of_nodup_map h (List.mem_of_find?_eq_some hf) ha hb]

theorem index_eq_of_key {key : α → β} {l : List α} (h : (l.map key).Nodup) {m n : Nat} {a b : α}
    (ha : l[m]? = some a) (hb : l[n]? = some b) (hkey : key a = key b) : m = n := by
  have hm : m < (l.map key).length := by
    rw [List.length_map]
    exact (List.getElem?_eq_some_iff.1 ha).1
  refine (List.getElem?_inj hm h).1 ?_
  rw [List.getElem?_map, List.getElem?_map, ha, hb, Option.map_some, Option.map_some, hkey]

theorem findIdx?_key_eq_some_iff [DecidableEq β] {key : α → β} {l : List α}
    (h : (l.map key).Nodup) {k : β} {n : Nat} :
    l.findIdx? (fun b => decide (key b = k)) = some n ↔ ∃ a, l[n]? = some a ∧ key a = k := by
  rw [List.findIdx?_eq_some_iff_getElem]
  constructor
  · intro h
    obtain ⟨hn, hk, _⟩ := h
    exact ⟨l[n], List.getElem?_eq_getElem hn, by simpa using hk⟩
  · intro h
    obtain ⟨a, ha, hk⟩ := h
    obtain ⟨hn, rfl⟩ := List.getElem?_eq_some_iff.1 ha
    refine ⟨hn, by simpa using hk, fun j hj => ?_⟩
    have hne : key l[j] ≠ key l[n] := by
      intro heq
      have := index_eq_of_key h (List.getElem?_eq_getElem (by omega)) ha heq
      omega
    simpa [← hk] using hne

end Distinct

/-- What a table needs of the names and tags of its fields. -/
structure TableDecl.WellNamed (t : TableDecl) : Prop where
  identifiers : ∀ f ∈ t.fields, IsIdentifier f.name
  noConstructor : ∀ f ∈ t.fields, f.name ≠ constructorName
  names : (t.fields.map (·.name)).Nodup
  tags : (t.fields.map (·.effectiveTag)).Nodup
  noSetter : ∀ f ∈ t.fields, ∀ g ∈ t.fields, g.name ≠ setterName f.name

/-- What tables need of their names and tags. -/
structure WellNamed (tables : List TableDecl) : Prop where
  identifiers : ∀ t ∈ tables, IsIdentifier t.name
  names : (tables.map (·.name)).Nodup
  tags : (tables.map (·.tag)).Nodup

theorem checkTableNames_eq_ok_iff {earlier l : List TableDecl} :
    checkTableNames earlier l = .ok () ↔ (∀ t ∈ l, IsIdentifier t.name) ∧
      DistinctFrom (·.name) earlier l ∧ DistinctFrom (·.tag) earlier l := by
  induction l generalizing earlier with
  | nil =>
    exact ⟨fun _ => ⟨fun _ h => absurd h List.not_mem_nil, distinctFrom_nil _ _,
      distinctFrom_nil _ _⟩, fun _ => rfl⟩
  | cons t l ih =>
    rw [checkTableNames, refuse_eq_ok_iff, refuse_eq_ok_iff, refuse_eq_ok_iff, ih,
      not_any_key_iff, not_any_key_iff, distinctFrom_cons, distinctFrom_cons,
      List.forall_mem_cons, Bool.not_eq_true', Bool.not_eq_false, isName_iff]
    tauto

theorem checkFieldNames_eq_ok_iff {table : String} {earlier l : List FieldDecl} :
    checkFieldNames table earlier l = .ok () ↔ (∀ f ∈ l, IsIdentifier f.name) ∧
      (∀ f ∈ l, f.name ≠ constructorName) ∧ DistinctFrom (·.name) earlier l ∧
      DistinctFrom (·.effectiveTag) earlier l := by
  induction l generalizing earlier with
  | nil =>
    exact ⟨fun _ => ⟨fun _ h => absurd h List.not_mem_nil, fun _ h => absurd h List.not_mem_nil,
      distinctFrom_nil _ _, distinctFrom_nil _ _⟩, fun _ => rfl⟩
  | cons f l ih =>
    rw [checkFieldNames, refuse_eq_ok_iff, refuse_eq_ok_iff, refuse_eq_ok_iff, refuse_eq_ok_iff,
      ih, not_any_key_iff, not_any_key_iff, distinctFrom_cons, distinctFrom_cons,
      List.forall_mem_cons, List.forall_mem_cons, Bool.not_eq_true', Bool.not_eq_false,
      isName_iff]
    tauto

theorem checkSetters_eq_ok_iff {table : String} {fields : List FieldDecl} :
    checkSetters table fields = .ok () ↔
      ∀ f ∈ fields, ∀ g ∈ fields, g.name ≠ setterName f.name := by
  unfold checkSetters
  split
  · next f hf =>
    obtain ⟨g, hg, heq⟩ : ∃ g ∈ fields, g.name = setterName f.name := by
      simpa using List.find?_some hf
    constructor
    · intro h
      cases h
    · intro h
      exact absurd heq (h f (List.mem_of_find?_eq_some hf) g hg)
  · next hnone =>
    simp only [true_iff]
    intro f hf g hg heq
    have := List.find?_eq_none.1 hnone f hf
    simp only [List.any_eq_true, decide_eq_true_eq] at this
    exact this ⟨g, hg, heq⟩

theorem checkNames_eq_ok_iff {t : TableDecl} :
    checkFieldNames t.name [] t.fields = .ok () ∧ checkSetters t.name t.fields = .ok () ↔
      t.WellNamed := by
  rw [checkFieldNames_eq_ok_iff, checkSetters_eq_ok_iff, distinctFrom_nil_left,
    distinctFrom_nil_left]
  constructor
  · intro h
    obtain ⟨⟨hid, hnew, hnames, htags⟩, hset⟩ := h
    exact ⟨hid, hnew, hnames, htags, hset⟩
  · intro h
    obtain ⟨hid, hnew, hnames, htags, hset⟩ := h
    exact ⟨⟨hid, hnew, hnames, htags⟩, hset⟩

theorem checkTableNames_nil_eq_ok_iff {tables : List TableDecl} {u : Unit} :
    checkTableNames [] tables = .ok u ↔ WellNamed tables := by
  rw [checkTableNames_eq_ok_iff, distinctFrom_nil_left, distinctFrom_nil_left]
  exact ⟨fun ⟨hid, hnames, htags⟩ => ⟨hid, hnames, htags⟩,
    fun ⟨hid, hnames, htags⟩ => ⟨hid, hnames, htags⟩⟩

end RecordTables
