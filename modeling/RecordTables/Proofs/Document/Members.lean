import RecordTables.Proofs.Document.Reading

/-!
Structures are read member by member.

What is read of a structure is kept in slots, one for each member: reading a member fills its slot and
no other.  `Holds slots ms m` says that the members `ms` write exactly what the slots of `m` hold, so a
reader that goes through members keeps it, and in the end the order of the members does not matter.
The other way, where `ms` write `target`, a reader that has gone through some of them holds the part
of `target` that these write (`Upto`), and in the end all of it.
-/

namespace RecordTables
namespace Document

open Json (Token Tree Following MemberSpelled Delimited)
open Json.Token (scan scan_eq_cons scan_spelled)

variable {α μ : Type} {text body post : List Char} {rest : List Token}

/-- One member of a structure: how it is written and read, and where it is kept. -/
structure Slot (μ : Type) where
  name : String
  {type : Type}
  writes : Tree → type → Prop
  reader : Reader type
  get : μ → Option type
  set : type → μ → μ

/-- The structure is read into the slots. -/
structure Shape.HasSlots (shape : Shape μ α) (slots : List (Slot μ)) : Prop where
  members : shape.members = slots.map Slot.name
  nonempty : shape.members ≠ []
  distinct : shape.members.Nodup
  reads : ∀ s ∈ slots, Reads s.reader s.writes
  has_eq : ∀ s ∈ slots, ∀ m, shape.has s.name m = (s.get m).isSome
  read_eq : ∀ s ∈ slots, ∀ m, shape.read s.name m = s.reader.map (s.set · m)
  get_none : ∀ s ∈ slots, s.get shape.none = Option.none
  get_set : ∀ s ∈ slots, ∀ a m, s.get (s.set a m) = some a
  get_set_ne : ∀ s ∈ slots, ∀ s' ∈ slots, s'.name ≠ s.name → ∀ a m, s'.get (s.set a m) = s'.get m
  ext : ∀ m m', (∀ s ∈ slots, s.get m = s.get m') → m = m'

/-- The slots hold what the members write. -/
def Holds (slots : List (Slot μ)) (ms : List (String × Tree)) (m : μ) : Prop :=
  ∀ s ∈ slots, Member s.writes ms s.name (s.get m)

/-- The slots that the members fill are as in the target, and the others are empty. -/
def Upto (slots : List (Slot μ)) (target : μ) (ms : List (String × Tree)) (m : μ) : Prop :=
  ∀ s ∈ slots, (∃ t, (s.name, t) ∈ ms) ∧ s.get m = s.get target ∨
    (∀ t, (s.name, t) ∉ ms) ∧ s.get m = none

theorem Member.append_of_ne {β : Type} {writes : Tree → β → Prop} {ms : List (String × Tree)}
    {name other : String} {t : Tree} {o : Option β} (hne : name ≠ other)
    (h : Member writes ms name o) : Member writes (ms ++ [(other, t)]) name o := by
  cases h with
  | present h ha => exact .present (List.mem_append_left _ h) ha
  | absent h => exact .absent fun t' ht' => by simp [hne, h] at ht'

namespace Shape.HasSlots

variable {shape : Shape μ α} {slots : List (Slot μ)} {ms pre : List (String × Tree)}
  {m m' target : μ} {name : String} (hs : shape.HasSlots slots)

include hs

theorem exists_slot (hn : name ∈ shape.members) : ∃ s ∈ slots, s.name = name := by
  rw [hs.members, List.mem_map] at hn
  exact hn

theorem eq_of_name {s s' : Slot μ} (h : s ∈ slots) (h' : s' ∈ slots) (hn : s.name = s'.name) :
    s = s' := by
  have nodup := hs.distinct
  rw [hs.members] at nodup
  exact List.inj_on_of_nodup_map nodup h h' hn

theorem holds_none : Holds slots [] shape.none := by
  intro s h
  rw [hs.get_none s h]
  exact .absent (by simp)

theorem upto_none : Upto slots target [] shape.none :=
  fun s h => .inr ⟨by simp, hs.get_none s h⟩

theorem eq_of_upto (hm : Holds slots ms target) (hu : Upto slots target ms m) : m = target := by
  refine hs.ext _ _ fun s hmem => ?_
  rcases hu s hmem with ⟨-, h⟩ | ⟨hn, h⟩
  · exact h
  · have said := hm s hmem
    cases ho : s.get target with
    | none => exact h
    | some a =>
      rw [ho] at said
      cases said with
      | present ht _ => exact absurd ht (hn _)

theorem leavesClosing (hn : name ∈ shape.members) : Reader.LeavesClosing (shape.read name m) := by
  obtain ⟨s, h, rfl⟩ := hs.exists_slot hn
  intro tokens a rest ha
  rw [hs.read_eq s h, Reader.map_takes_iff] at ha
  obtain ⟨b, hb, -⟩ := ha
  exact (hs.reads s h).leavesClosing hb

/-! ## One member -/

theorem holds_read (hn : name ∈ shape.members) (hm : Holds slots pre m)
    (h : Reader.Takes (shape.read name m) (scan text) m' rest) :
    ∃ t post, t.Spelled text post ∧ Holds slots (pre ++ [(name, t)]) m' ∧ rest = scan post := by
  obtain ⟨s, hmem, rfl⟩ := hs.exists_slot hn
  rw [hs.read_eq s hmem, Reader.map_takes_iff] at h
  obtain ⟨a, ha, rfl⟩ := h
  obtain ⟨t, post, ht, hw, rfl⟩ := (hs.reads s hmem).sound ha
  refine ⟨t, post, ht, fun s' hmem' => ?_, rfl⟩
  by_cases hne : s'.name = s.name
  · obtain rfl := hs.eq_of_name hmem' hmem hne
    rw [hs.get_set _ hmem]
    exact .present (by simp) hw
  · rw [hs.get_set_ne _ hmem _ hmem' hne]
    exact (hm s' hmem').append_of_ne hne

theorem read_upto (hm : Holds slots ms target) (hd : (ms.map Prod.fst).Nodup)
    (hn : name ∈ shape.members) {t : Tree} (ht : (name, t) ∈ ms) (hu : Upto slots target pre m)
    (hspelled : t.Spelled text post) (hp : Delimited post) :
    ∃ m', Reader.Takes (shape.read name m) (scan text) m' (scan post) ∧
      Upto slots target (pre ++ [(name, t)]) m' := by
  obtain ⟨s, hmem, rfl⟩ := hs.exists_slot hn
  obtain ⟨a, ha, hw⟩ : ∃ a, s.get target = some a ∧ s.writes t a := by
    have said := hm s hmem
    cases ho : s.get target with
    | none =>
      rw [ho] at said
      cases said with
      | absent h => exact absurd ht (h _)
    | some a =>
      rw [ho] at said
      cases said with
      | present ht' hw =>
        have same := List.inj_on_of_nodup_map hd ht ht' rfl
        cases same
        exact ⟨a, rfl, hw⟩
  have taken := (hs.reads s hmem).complete hw hspelled hp
  refine ⟨s.set a m, ?_, fun s' hmem' => ?_⟩
  · rw [hs.read_eq s hmem, Reader.map_takes_iff]
    exact ⟨a, taken, rfl⟩
  · by_cases hne : s'.name = s.name
    · obtain rfl := hs.eq_of_name hmem' hmem hne
      exact .inl ⟨⟨t, by simp⟩, (hs.get_set _ hmem _ _).trans ha.symm⟩
    · rw [hs.get_set_ne _ hmem _ hmem' hne]
      rcases hu s' hmem' with ⟨⟨t', ht'⟩, h⟩ | ⟨hn, h⟩
      · exact .inl ⟨⟨t', List.mem_append_left _ ht'⟩, h⟩
      · exact .inr ⟨fun t' ht' => by simp [hne, hn] at ht', h⟩

/-! ## Objects -/

theorem not_mem_of_has (hn : name ∈ shape.members) (hm : Holds slots pre m)
    (h : shape.has name m = false) (t : Tree) : (name, t) ∉ pre := by
  obtain ⟨s, hmem, rfl⟩ := hs.exists_slot hn
  rw [hs.has_eq s hmem, Option.isSome_eq_false_iff, Option.isNone_iff_eq_none] at h
  have said := hm s hmem
  rw [h] at said
  cases said with
  | absent h => exact h t

theorem has_upto (hn : name ∈ shape.members) (hu : Upto slots target pre m)
    (h : ∀ t, (name, t) ∉ pre) : shape.has name m = false := by
  obtain ⟨s, hmem, rfl⟩ := hs.exists_slot hn
  rw [hs.has_eq s hmem]
  rcases hu s hmem with ⟨⟨t, ht⟩, -⟩ | ⟨-, hget⟩
  · exact absurd ht (h t)
  · rw [hget, Option.isSome_none]

theorem object_sound (hm : Holds slots pre m) (known : ∀ x ∈ pre, x.1 ∈ shape.members)
    (distinct : (pre.map Prod.fst).Nodup)
    (h : Reader.Takes (shape.object m) (scan text) m' rest) :
    ∃ x xs body post, MemberSpelled Tree.Spelled x text body ∧
      Following (MemberSpelled Tree.Spelled) '\x7d' xs body post ∧
      Holds slots (pre ++ x :: xs) m' ∧ (∀ y ∈ pre ++ x :: xs, y.1 ∈ shape.members) ∧
      ((pre ++ x :: xs).map Prod.fst).Nodup ∧ rest = scan post := by
  induction hsize : (scan text).length using Nat.strongRecOn generalizing text pre m with
  | ind size ih =>
  obtain ⟨key, more, m₁, next, hkey, hn, fresh, hread, hnext⟩ := Shape.object_takes_iff.1 h
  obtain ⟨_, body, hb, hspelling, hmore⟩ := scan_eq_cons hkey id
  obtain ⟨_, colon, hc, ⟨⟩, rfl⟩ := scan_eq_cons hmore.symm id
  obtain ⟨t, after, ht, hm₁, rfl⟩ := hs.holds_read hn hm hread
  have hfresh := hs.not_mem_of_has hn hm fresh
  have known' : ∀ y ∈ pre ++ [(key, t)], y.1 ∈ shape.members := by
    intro y hy
    rcases List.mem_append.1 hy with hy | hy
    · exact known y hy
    · rw [List.mem_singleton.1 hy]
      exact hn
  have distinct' : ((pre ++ [(key, t)]).map Prod.fst).Nodup := by
    rw [List.map_append, List.nodup_append]
    refine ⟨distinct, by simp, ?_⟩
    rintro a ha b hb rfl
    obtain ⟨⟨a, t'⟩, ht', rfl⟩ := List.mem_map.1 ha
    simp only [List.map_cons, List.map_nil, List.mem_singleton] at hb
    rw [hb] at ht'
    exact hfresh t' ht'
  have member : MemberSpelled Tree.Spelled (key, t) text after := by
    cases hspelling with
    | string hspelling => exact .mk hb hspelling hc ht
  rcases hnext with ⟨hclose, rfl⟩ | ⟨more', hcomma, hmore'⟩
  · obtain ⟨_, post, hp, ⟨⟩, rfl⟩ := scan_eq_cons hclose id
    exact ⟨(key, t), [], after, post, member, .close hp, hm₁, known', distinct', rfl⟩
  · obtain ⟨_, text', hp, ⟨⟩, rfl⟩ := scan_eq_cons hcomma id
    have shorter : (scan text').length < size := by
      have taken := hread.1
      rw [← hsize, hkey]
      rw [hcomma] at taken
      simp only [List.length_cons] at taken ⊢
      omega
    obtain ⟨x, xs, body', post, hx, hxs, hm', hk, hd, rfl⟩ :=
      ih _ shorter hm₁ known' distinct' hmore' rfl
    rw [List.append_assoc, List.singleton_append] at hm' hk hd
    exact ⟨(key, t), x :: xs, after, post, member, .more hp hx hxs, hm', hk, hd, rfl⟩

theorem object_complete (hm : Holds slots ms target) (known : ∀ x ∈ ms, x.1 ∈ shape.members)
    (distinct : (ms.map Prod.fst).Nodup) {xs : List (String × Tree)}
    (hxs : Following (MemberSpelled Tree.Spelled) '\x7d' xs body post) :
    ∀ {x text pre m}, pre ++ x :: xs = ms → MemberSpelled Tree.Spelled x text body →
      Upto slots target pre m → Reader.Takes (shape.object m) (scan text) target (scan post) := by
  -- what holds of the member at hand, whatever follows it
  have step : ∀ {x : String × Tree} {xs pre m} {text body : List Char}, pre ++ x :: xs = ms →
      MemberSpelled Tree.Spelled x text body → Delimited body → Upto slots target pre m →
      ∃ more m₁, scan text = .string x.1 :: .colon :: more ∧ x.1 ∈ shape.members ∧
        shape.has x.1 m = false ∧ Reader.Takes (shape.read x.1 m) more m₁ (scan body) ∧
        Upto slots target (pre ++ [x]) m₁ := by
    rintro x xs pre m text body hms ⟨hb, hkey, hc, ht⟩ hd hu
    next key t spelling colon after =>
    have hx : (key, t) ∈ ms := by rw [← hms]; simp
    have hn := known _ hx
    obtain ⟨m₁, hread, hu₁⟩ := hs.read_upto hm distinct hn hx hu ht hd
    refine ⟨_, m₁, ?_, hn, hs.has_upto hn hu fun t' ht' => ?_, hread, hu₁⟩
    · rw [scan_spelled (.string hkey) hb (by simp), scan_spelled .colon hc (by simp)]
    · rw [← hms, List.map_append, List.nodup_append] at distinct
      exact distinct.2.2 key (List.mem_map.2 ⟨_, ht', rfl⟩) key (by simp) rfl
  induction hxs with
  | close hb =>
    intro x text pre m hms hx hu
    obtain ⟨more, m₁, hscan, hn, fresh, hread, hu₁⟩ :=
      step hms hx (hb.delimited (delimited_mark (by decide) _)) hu
    rw [hms] at hu₁
    rw [hs.eq_of_upto hm hu₁] at hread
    exact Shape.object_takes_iff.2 ⟨_, more, target, _, hscan, hn, fresh, hread,
      .inl ⟨scan_spelled .closeBrace hb (by simp), rfl⟩⟩
  | more hb hx' _ ih =>
    intro x text pre m hms hx hu
    obtain ⟨more, m₁, hscan, hn, fresh, hread, hu₁⟩ :=
      step hms hx (hb.delimited (delimited_mark (by decide) _)) hu
    exact Shape.object_takes_iff.2 ⟨_, more, m₁, _, hscan, hn, fresh, hread,
      .inr ⟨_, scan_spelled .comma hb (by simp), ih (by simp [hms]) hx' hu₁⟩⟩

/-! ## Lists -/

theorem row_sound {names : List String} (hn : names ⊆ shape.members) (hm : Holds slots pre m)
    (h : Reader.Takes (shape.row m true names) (scan text) m' rest) :
    ∃ ts post, Following Tree.Spelled ']' ts text post ∧ ts.length ≤ names.length ∧
      Holds slots (pre ++ names.zip ts) m' ∧ rest = scan post := by
  have closing : ∀ {text : List Char}, scan text = .closeBracket :: rest →
      ∃ post, Following Tree.Spelled ']' [] text post ∧ rest = scan post := by
    intro text hscan
    obtain ⟨_, post, hb, ⟨⟩, rfl⟩ := scan_eq_cons hscan id
    exact ⟨post, .close hb, rfl⟩
  induction names generalizing text pre m with
  | nil =>
    obtain ⟨hscan, rfl⟩ := Shape.row_nil_takes_iff.1 h
    obtain ⟨post, hts, rfl⟩ := closing hscan
    exact ⟨[], post, hts, by simp, by simpa using hm, rfl⟩
  | cons name names ih =>
    obtain ⟨known, hn⟩ := List.cons_subset.1 hn
    rcases (Shape.row_next_takes_iff (hs.leavesClosing known)).1 h with
      ⟨hscan, rfl⟩ | ⟨more, m₁, next, hscan, hread, hrow⟩
    · obtain ⟨post, hts, rfl⟩ := closing hscan
      exact ⟨[], post, hts, by simp, by simpa using hm, rfl⟩
    · obtain ⟨_, text', hb, ⟨⟩, rfl⟩ := scan_eq_cons hscan id
      obtain ⟨t, after, ht, hm₁, rfl⟩ := hs.holds_read known hm hread
      obtain ⟨ts, post, hts, hlen, hm', rfl⟩ := ih hn hm₁ hrow
      rw [List.append_assoc, List.singleton_append] at hm'
      exact ⟨t :: ts, post, .more hb ht hts, Nat.succ_le_succ hlen, hm', rfl⟩

theorem row_complete (hm : Holds slots ms target) (distinct : (ms.map Prod.fst).Nodup)
    {ts : List Tree} (hts : Following Tree.Spelled ']' ts text post) :
    ∀ {names : List String} {pre m}, names ⊆ shape.members → ts.length ≤ names.length →
      pre ++ names.zip ts = ms → Upto slots target pre m →
      Reader.Takes (shape.row m true names) (scan text) target (scan post) := by
  induction hts with
  | close hb =>
    intro names pre m hn _ hms hu
    rw [List.zip_nil_right, List.append_nil] at hms
    rw [hms] at hu
    have closed := scan_spelled .closeBracket hb (by simp)
    have same := (hs.eq_of_upto hm hu).symm
    cases names with
    | nil => exact Shape.row_nil_takes_iff.2 ⟨closed, same⟩
    | cons name names =>
      exact (Shape.row_next_takes_iff (hs.leavesClosing (hn (by simp)))).2 (.inl ⟨closed, same⟩)
  | @more t ts text body after rest hb ht hts ih =>
    intro names pre m hn hlen hms hu
    cases names with
    | nil => simp at hlen
    | cons name names =>
      obtain ⟨known, hn⟩ := List.cons_subset.1 hn
      have ht' : (name, t) ∈ ms := by rw [← hms]; simp
      have hd : Delimited after := hts.delimited (delimited_mark (by decide))
      obtain ⟨m₁, hread, hu₁⟩ := hs.read_upto hm distinct known ht' hu ht hd
      have later := ih hn (Nat.le_of_succ_le_succ hlen) (by rw [← hms]; simp) hu₁
      exact (Shape.row_next_takes_iff (hs.leavesClosing known)).2
        (.inr ⟨_, m₁, _, scan_spelled .comma hb (by simp), hread, later⟩)

theorem list_sound
    (h : Reader.Takes (shape.row shape.none false shape.members) (scan text) m rest) :
    ∃ ts post, (∀ {opened}, Json.Blanks opened ('[' :: text) → (Tree.list ts).Spelled opened post) ∧
      ts.length ≤ shape.members.length ∧ Holds slots (shape.members.zip ts) m ∧
      rest = scan post := by
  obtain ⟨name, names, hmembers⟩ := List.exists_cons_of_ne_nil hs.nonempty
  have known : name ∈ shape.members := by simp [hmembers]
  have others : names ⊆ shape.members := by simp [hmembers]
  rw [hmembers] at h ⊢
  rcases (Shape.row_first_takes_iff (hs.leavesClosing known)).1 h with
    ⟨hscan, rfl⟩ | ⟨m₁, next, hread, hrow⟩
  · obtain ⟨_, post, closing, ⟨⟩, rfl⟩ := scan_eq_cons hscan id
    exact ⟨[], post, fun opening => .emptyList opening closing, by simp, hs.holds_none, rfl⟩
  · obtain ⟨t, after, ht, hm₁, rfl⟩ := hs.holds_read known hs.holds_none hread
    obtain ⟨ts, post, hts, hlen, hm, rfl⟩ := hs.row_sound others hm₁ hrow
    exact ⟨t :: ts, post, fun opening => .list opening ht hts, Nat.succ_le_succ hlen, hm, rfl⟩

theorem list_complete {ts : List Tree} (hm : Holds slots (shape.members.zip ts) target)
    (hlen : ts.length ≤ shape.members.length) (ht : (Tree.list ts).Spelled text post) :
    ∃ body, Json.Blanks text ('[' :: body) ∧
      Reader.Takes (shape.row shape.none false shape.members) (scan body) target (scan post) := by
  obtain ⟨name, names, hmembers⟩ := List.exists_cons_of_ne_nil hs.nonempty
  have known : name ∈ shape.members := by simp [hmembers]
  have others : names ⊆ shape.members := by simp [hmembers]
  have distinct := hs.distinct
  have zipped : ((shape.members.zip ts).map Prod.fst).Nodup := by
    rw [List.zip_eq_zip_take_min, List.map_fst_zip (by simp)]
    exact distinct.sublist (List.take_sublist _ _)
  rw [hmembers] at hm hlen zipped ⊢
  cases ht with
  | emptyList opening closing =>
    exact ⟨_, opening, (Shape.row_first_takes_iff (hs.leavesClosing known)).2
      (.inl ⟨scan_spelled .closeBracket closing (by simp), (hs.eq_of_upto hm hs.upto_none).symm⟩)⟩
  | list opening ht hts =>
    obtain ⟨m₁, hread, hu⟩ := hs.read_upto hm zipped known (by simp) hs.upto_none ht
      (hts.delimited (delimited_mark (by decide)))
    exact ⟨_, opening, (Shape.row_first_takes_iff (hs.leavesClosing known)).2 (.inr ⟨m₁, _, hread,
      hs.row_complete hm zipped hts others (Nat.le_of_succ_le_succ hlen) rfl hu⟩)⟩

end Shape.HasSlots

/-! ## Both forms -/

/-- The value has members that fill the slots with what makes the structure. -/
def Shape.Makes (shape : Shape μ α) (slots : List (Slot μ)) (t : Tree) (a : α) : Prop :=
  ∃ ms m, Members shape.members t ms ∧ Holds slots ms m ∧ shape.finish m = .ok a

theorem Shape.HasSlots.reads_reader {shape : Shape μ α} {slots : List (Slot μ)}
    (hs : shape.HasSlots slots) : Reads shape.reader (shape.Makes slots) where
  sound h := by
    obtain ⟨m, hfinish, ⟨hscan, rfl⟩ | ⟨more, hscan, hobject⟩ | ⟨more, hscan, hrow⟩⟩ :=
      Shape.reader_takes_iff.1 h
    · obtain ⟨_, body, opening, ⟨⟩, hbody⟩ := scan_eq_cons hscan id
      obtain ⟨_, post, closing, ⟨⟩, rfl⟩ := scan_eq_cons hbody.symm id
      exact ⟨_, post, .emptyObject opening closing,
        ⟨[], _, .object (by simp) (by simp), hs.holds_none, hfinish⟩, rfl⟩
    · obtain ⟨_, body, opening, ⟨⟩, rfl⟩ := scan_eq_cons hscan id
      obtain ⟨x, xs, after, post, hx, hxs, hm, known, distinct, rfl⟩ :=
        hs.object_sound hs.holds_none (by simp) (by simp) hobject
      exact ⟨_, post, .object opening hx hxs, ⟨x :: xs, m, .object known distinct, hm, hfinish⟩, rfl⟩
    · obtain ⟨_, body, opening, ⟨⟩, rfl⟩ := scan_eq_cons hscan id
      obtain ⟨ts, post, ht, hlen, hm, rfl⟩ := hs.list_sound hrow
      exact ⟨_, post, ht opening, ⟨_, m, .list hlen, hm, hfinish⟩, rfl⟩
  complete h ht hp := by
    obtain ⟨ms, m, hms, hm, hfinish⟩ := h
    refine Shape.reader_takes_iff.2 ⟨m, hfinish, ?_⟩
    cases hms with
    | object known distinct =>
      cases ht with
      | emptyObject opening closing =>
        refine .inl ⟨?_, (hs.eq_of_upto hm hs.upto_none).symm⟩
        rw [scan_spelled .openBrace opening (by simp), scan_spelled .closeBrace closing (by simp)]
      | object opening hx hxs =>
        exact .inr (.inl ⟨_, scan_spelled .openBrace opening (by simp),
          hs.object_complete hm known distinct hxs (List.nil_append _) hx hs.upto_none⟩)
    | list hlen =>
      obtain ⟨body, opening, hrow⟩ := hs.list_complete hm hlen ht
      exact .inr (.inr ⟨_, scan_spelled .openBracket opening (by simp), hrow⟩)
  leavesClosing h := by
    obtain ⟨m, -, ⟨hscan, -⟩ | ⟨more, hscan, -⟩ | ⟨more, hscan, -⟩⟩ :=
      Shape.reader_takes_iff.1 h <;> cases hscan

end Document
end RecordTables
