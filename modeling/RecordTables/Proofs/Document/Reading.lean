import RecordTables.Proofs.Document.Taking
import RecordTables.Proofs.Document.Writing
import RecordTables.Proofs.Json.Scanning

/-!
Readers read what is written.

`Reads r writes` relates a reader, which works on tokens, to a relation between values and what they
write: what the reader takes off a text is written there by some value, and a value that is spelled
there is taken off.  A structure reads its members one by one, in the order in which they come; what
has been read so far is described slot by slot (`Slot`), and the order drops out.
-/

namespace RecordTables

open Json (Token Tree Literal Numeral Blanks Following MemberSpelled Delimited)
open Json.Token (scan scan_eq_cons scan_spelled)

/-! ## Integers -/

namespace Json.Literal

variable {l : Literal}

theorem value?_eq_natural_iff {n : Nat} :
    l.value? = .ok (.natural n) ↔ l.IsInteger n ∧ l.negative = false ∧ n < 0x10000000000000000 := by
  unfold value?
  dsimp only
  constructor
  · intro h
    split at h
    · obtain ⟨x, -, hx⟩ := map_eq_ok_iff.1 h
      cases hx
    · next hs =>
      split at h
      · next hn =>
        cases h
        simp only [not_or, Bool.not_eq_true, Option.isSome_eq_false_iff, Option.isNone_iff_eq_none,
          Nat.not_le, Bool.not_eq_eq_eq_not, Bool.not_true] at hs hn
        exact ⟨⟨hs.1, hs.2.1, by simp [hn], by simp [hn]⟩, hn, hs.2.2⟩
      · split at h <;> cases h
  · rintro ⟨⟨hf, he, hv, -⟩, hn, hlt⟩
    rw [hn, if_neg Bool.false_ne_true, Int.natCast_inj] at hv
    have small : ¬0x10000000000000000 ≤ natural l.whole := by omega
    simp [hf, he, hn, small, hv]

theorem value?_eq_negative_iff {n : Nat} :
    l.value? = .ok (.negative n) ↔
      l.IsInteger (-(n : Int)) ∧ l.negative = true ∧ n ≤ 0x8000000000000000 := by
  unfold value?
  dsimp only
  constructor
  · intro h
    split at h
    · obtain ⟨x, -, hx⟩ := map_eq_ok_iff.1 h
      cases hx
    · next hs =>
      split at h
      · cases h
      · next hn =>
        split at h
        · next hr =>
          cases h
          have negative : l.negative = true := by simpa using hn
          simp only [not_or, Bool.not_eq_true, Option.isSome_eq_false_iff,
            Option.isNone_iff_eq_none] at hs
          exact ⟨⟨hs.1, hs.2.1, by simp [negative], fun _ => by omega⟩, negative, hr.2⟩
        · cases h
  · rintro ⟨⟨hf, he, hv, hz⟩, hn, hle⟩
    have hzero := hz hn
    rw [hn, if_pos rfl] at hv
    have hwhole : natural l.whole = n := by omega
    have small : ¬0x10000000000000000 ≤ n := by omega
    have range : 1 ≤ n ∧ n ≤ 0x8000000000000000 := by omega
    simp [hf, he, hn, small, range, hwhole]

end Json.Literal

namespace Document

variable {α β μ : Type} {text post : List Char} {tokens rest : List Token}

/-- The reader takes off a text what values write that are spelled there. -/
structure Reads (r : Reader α) (writes : Tree → α → Prop) : Prop where
  sound : ∀ {text a rest}, r.Takes (scan text) a rest →
    ∃ t post, t.Spelled text post ∧ writes t a ∧ rest = scan post
  complete : ∀ {t a text post}, writes t a → t.Spelled text post → Delimited post →
    r.Takes (scan text) a (scan post)
  leavesClosing : r.LeavesClosing

/-! ## Single values -/

theorem reads_text : Reads Document.text IsText where
  sound h := by
    rw [text_takes_iff] at h
    obtain ⟨_, post, hb, hs, rfl⟩ := scan_eq_cons h id
    cases hs with
    | string hs => exact ⟨_, post, .string hb hs, .mk, rfl⟩
  complete h ht _ := by
    rw [text_takes_iff]
    cases h with
    | mk =>
      cases ht with
      | string hb hs => exact scan_spelled (.string hs) hb (by simp)
  leavesClosing h := by
    rw [text_takes_iff] at h
    cases h

theorem reads_optional {r : Reader α} {writes : Tree → α → Prop} (hr : Reads r writes)
    (notNull : ∀ {tokens a rest}, ¬r.Takes (.null :: tokens) a rest) :
    Reads (optional r) (IsOptional writes) where
  sound h := by
    rw [optional_takes_iff] at h
    rcases h with ⟨h, rfl⟩ | ⟨-, a, rfl, h⟩
    · obtain ⟨_, post, hb, hs, rfl⟩ := scan_eq_cons h id
      cases hs with
      | null => exact ⟨_, post, .null hb, .null, rfl⟩
    · obtain ⟨t, post, ht, ha, rfl⟩ := hr.sound h
      exact ⟨t, post, ht, .value ha, rfl⟩
  complete h ht hp := by
    rw [optional_takes_iff]
    cases h with
    | null =>
      cases ht with
      | null hb => exact .inl ⟨scan_spelled .null hb (by simp), rfl⟩
    | value ha =>
      have taken := hr.complete ha ht hp
      refine .inr ⟨fun more hn => ?_, _, rfl, taken⟩
      rw [hn] at taken
      exact notNull taken
  leavesClosing h := by
    rw [optional_takes_iff] at h
    rcases h with ⟨h, -⟩ | ⟨-, a, -, h⟩
    · cases h
    · exact hr.leavesClosing h

theorem reads_integer : Reads integer IsInteger where
  sound h := by
    rw [integer_takes_iff] at h
    rcases h with ⟨k, h, hk, rfl⟩ | ⟨k, h, rfl⟩
    · obtain ⟨_, post, hb, hs, rfl⟩ := scan_eq_cons h id
      cases hs with
      | number hl hn =>
        obtain ⟨hi, -, -⟩ := Literal.value?_eq_natural_iff.1 hn
        exact ⟨_, post, .number hb hl, .mk hi (by omega) (by omega), rfl⟩
    · obtain ⟨_, post, hb, hs, rfl⟩ := scan_eq_cons h id
      cases hs with
      | number hl hn =>
        obtain ⟨hi, -, hk⟩ := Literal.value?_eq_negative_iff.1 hn
        exact ⟨_, post, .number hb hl, .mk hi (by omega) (by omega), rfl⟩
  complete := by
    intro t n text post h ht hp
    rw [integer_takes_iff]
    cases h with
    | @mk l n hi low high =>
      cases ht with
      | number hb hl =>
        have hvalue := hi.value
        cases hn : l.negative with
        | false =>
          rw [hn] at hvalue
          obtain ⟨k, rfl⟩ := Int.eq_ofNat_of_zero_le (a := n) (by simp at hvalue; omega)
          refine .inl ⟨k, scan_spelled (.number hl ?_) hb fun _ _ => hp, by omega, rfl⟩
          exact Literal.value?_eq_natural_iff.2 ⟨hi, hn, by omega⟩
        | true =>
          rw [hn] at hvalue
          obtain ⟨k, rfl⟩ : ∃ k : Nat, n = -(k : Int) := ⟨_, hvalue⟩
          refine .inr ⟨k, scan_spelled (.number hl ?_) hb fun _ _ => hp, rfl⟩
          exact Literal.value?_eq_negative_iff.2 ⟨hi, hn, by omega⟩
  leavesClosing h := by
    rw [integer_takes_iff] at h
    rcases h with ⟨k, h, -⟩ | ⟨k, h, -⟩ <;> cases h

theorem reads_count : Reads count IsCount where
  sound h := by
    rw [count_takes_iff] at h
    rcases h with ⟨k, h, hk, rfl⟩ | ⟨s, h, rfl⟩
    · obtain ⟨_, post, hb, hs, rfl⟩ := scan_eq_cons h id
      cases hs with
      | number hl hn =>
        obtain ⟨hi, -, -⟩ := Literal.value?_eq_natural_iff.1 hn
        exact ⟨_, post, .number hb hl, .fixed hi hk, rfl⟩
    · obtain ⟨_, post, hb, hs, rfl⟩ := scan_eq_cons h id
      cases hs with
      | string hs => exact ⟨_, post, .string hb hs, .named, rfl⟩
  complete h ht hp := by
    rw [count_takes_iff]
    cases h with
    | @fixed l n hi hn =>
      cases ht with
      | number hb hl =>
        have positive : l.negative = false := by
          have hvalue := hi.value
          have hzero := hi.notMinusZero
          by_contra hneg
          rw [Bool.not_eq_false] at hneg
          simp only [hneg, if_true, forall_const] at hvalue hzero
          omega
        refine .inl ⟨n, scan_spelled (.number hl ?_) hb fun _ _ => hp, hn, rfl⟩
        exact Literal.value?_eq_natural_iff.2 ⟨hi, positive, by omega⟩
    | named =>
      cases ht with
      | string hb hs => exact .inr ⟨_, scan_spelled (.string hs) hb (by simp), rfl⟩
  leavesClosing h := by
    rw [count_takes_iff] at h
    rcases h with ⟨k, h, -⟩ | ⟨k, h, -⟩ <;> cases h

theorem reads_luaType : Reads luaType IsLuaType where
  sound h := by
    rw [luaType_takes_iff] at h
    rcases h with h | h
    · obtain ⟨_, post, hb, hs, rfl⟩ := scan_eq_cons h id
      cases hs with
      | string hs => exact ⟨_, post, .string hb hs, .name, rfl⟩
    · obtain ⟨_, a, opening, ⟨⟩, h⟩ := scan_eq_cons h id
      obtain ⟨_, b, hkey, hs, h⟩ := scan_eq_cons h.symm id
      obtain ⟨_, c, colon, ⟨⟩, h⟩ := scan_eq_cons h.symm id
      obtain ⟨_, d, null, ⟨⟩, h⟩ := scan_eq_cons h.symm id
      obtain ⟨_, post, closing, ⟨⟩, rfl⟩ := scan_eq_cons h.symm id
      cases hs with
      | string hs =>
        exact ⟨_, post, .object opening (.mk hkey hs colon (.null null)) (.close closing), .member,
          rfl⟩
  complete h ht hp := by
    rw [luaType_takes_iff]
    cases h with
    | name =>
      cases ht with
      | string hb hs => exact .inl (scan_spelled (.string hs) hb (by simp))
    | member =>
      cases ht with
      | object opening hm hms =>
        cases hm with
        | mk hkey hs colon ht =>
          cases ht with
          | null null =>
            cases hms with
            | close closing =>
              right
              rw [scan_spelled .openBrace opening (by simp),
                scan_spelled (.string hs) hkey (by simp), scan_spelled .colon colon (by simp),
                scan_spelled .null null (by simp), scan_spelled .closeBrace closing (by simp)]
  leavesClosing h := by
    rw [luaType_takes_iff] at h
    rcases h with h | h <;> cases h

/-! ## Lists -/

theorem delimited_mark {c : Char} (hc : c ∈ [']', '\x7d', ',', ':']) (rest : List Char) :
    Delimited (c :: rest) := by
  intro d hd
  cases hd
  simp only [List.mem_cons, List.not_mem_nil, or_false] at hc
  rcases hc with rfl | rfl | rfl | rfl <;> decide

section

variable {r : Reader α} {writes : Tree → α → Prop}

theorem items_sound (hr : Reads r writes) {as : List α} {text : List Char}
    (h : Reader.Takes (items r) (scan text) as rest) :
    ∃ t ts body post, t.Spelled text body ∧ Following Tree.Spelled ']' ts body post ∧
      List.Forall₂ writes (t :: ts) as ∧ rest = scan post := by
  induction as generalizing text with
  | nil =>
    obtain ⟨a, next, -, ⟨-, h⟩ | ⟨more, as', -, -, h⟩⟩ :=
      (items_takes_iff hr.leavesClosing).1 h <;> cases h
  | cons a as ih =>
    obtain ⟨a', next, ha, ⟨hclose, h⟩ | ⟨more, as', hcomma, hmore, h⟩⟩ :=
      (items_takes_iff hr.leavesClosing).1 h
    · cases h
      obtain ⟨t, body, ht, hw, hbody⟩ := hr.sound ha
      obtain ⟨_, post, hb, ⟨⟩, rfl⟩ := scan_eq_cons (hbody.symm.trans hclose) id
      exact ⟨t, [], body, post, ht, .close hb, .cons hw .nil, rfl⟩
    · cases h
      obtain ⟨t, body, ht, hw, hbody⟩ := hr.sound ha
      obtain ⟨_, text', hb, ⟨⟩, rfl⟩ := scan_eq_cons (hbody.symm.trans hcomma) id
      obtain ⟨t', ts, body', post, ht', hts, hws, rfl⟩ := ih hmore
      exact ⟨t, t' :: ts, body, post, ht, .more hb ht' hts, .cons hw hws, rfl⟩

theorem items_complete (hr : Reads r writes) {ts : List Tree} {body : List Char}
    (hts : Following Tree.Spelled ']' ts body post) :
    ∀ {t as text}, t.Spelled text body → List.Forall₂ writes (t :: ts) as →
      Reader.Takes (items r) (scan text) as (scan post) := by
  induction hts with
  | close hb =>
    intro t as text ht hws
    cases hws with
    | cons hw hws =>
    cases hws
    have taken := hr.complete hw ht (hb.delimited (delimited_mark (by decide) _))
    exact (items_takes_iff hr.leavesClosing).2
      ⟨_, _, taken, .inl ⟨scan_spelled .closeBracket hb (by simp), rfl⟩⟩
  | more hb ht' _ ih =>
    intro t as text ht hws
    cases hws with
    | cons hw hws =>
    have taken := hr.complete hw ht (hb.delimited (delimited_mark (by decide) _))
    exact (items_takes_iff hr.leavesClosing).2
      ⟨_, _, taken, .inr ⟨_, _, scan_spelled .comma hb (by simp), ih ht' hws, rfl⟩⟩

theorem reads_list (hr : Reads r writes) : Reads (list r) (IsList writes) where
  sound h := by
    rcases (list_takes_iff hr.leavesClosing).1 h with ⟨hscan, rfl⟩ | ⟨more, hscan, hmore⟩
    · obtain ⟨_, body, opening, ⟨⟩, hbody⟩ := scan_eq_cons hscan id
      obtain ⟨_, post, closing, ⟨⟩, rfl⟩ := scan_eq_cons hbody.symm id
      exact ⟨_, post, .emptyList opening closing, .mk .nil, rfl⟩
    · obtain ⟨_, body, opening, ⟨⟩, rfl⟩ := scan_eq_cons hscan id
      obtain ⟨t, ts, after, post, ht, hts, hws, rfl⟩ := items_sound hr hmore
      exact ⟨_, post, .list opening ht hts, .mk hws, rfl⟩
  complete h ht _ := by
    cases h with
    | mk hws =>
    cases ht with
    | emptyList opening closing =>
      cases hws
      refine (list_takes_iff hr.leavesClosing).2 (.inl ⟨?_, rfl⟩)
      rw [scan_spelled .openBracket opening (by simp), scan_spelled .closeBracket closing (by simp)]
    | list opening ht hts =>
      exact (list_takes_iff hr.leavesClosing).2 (.inr
        ⟨_, scan_spelled .openBracket opening (by simp), items_complete hr hts ht hws⟩)
  leavesClosing h := by
    rcases (list_takes_iff hr.leavesClosing).1 h with ⟨h, -⟩ | ⟨more, h, -⟩ <;> cases h

end

end Document
end RecordTables
