import Mathlib.Data.Nat.Digits.Defs
import RecordTables.Proofs.Text.Codes
import RecordTables.Text.Quoted

/-!
Quoted texts end by themselves.

Inside of quotes a character is written in one of three forms, and from each of them the character
can be told.  No form begins another one or begins with a quote, so a quoted text can be told from
itself and whatever follows it (`prefixCode_encode`).
-/

namespace RecordTables
namespace Text

/-! ## Hexadecimal numbers -/

theorem hexDigit_inj : ∀ m < 16, ∀ n < 16, Nat.digitChar m = Nat.digitChar n → m = n := by
  decide

theorem hexDigits_inj {m n : Nat} (h : Nat.toDigits 16 m = Nat.toDigits 16 n) : m = n := by
  have hbase : 1 < 16 := by decide
  -- a number of one digit has fewer of them than any other number
  have hshort : ∀ {m n : Nat}, m < 16 → ¬n < 16 → Nat.toDigits 16 m ≠ Nat.toDigits 16 n := by
    intro m n hm hn h
    rw [Nat.toDigits_of_lt_base hm, Nat.toDigits_of_base_le hbase (Nat.le_of_not_lt hn)] at h
    have hlength := congrArg List.length h
    have hpos : 0 < (Nat.toDigits 16 (n / 16)).length := Nat.length_toDigits_pos
    simp only [List.length_append, List.length_singleton] at hlength
    omega
  induction m using Nat.strongRecOn generalizing n with
  | ind m ih =>
    by_cases hm : m < 16
    · by_cases hn : n < 16
      · rw [Nat.toDigits_of_lt_base hm, Nat.toDigits_of_lt_base hn] at h
        exact hexDigit_inj m hm n hn (List.cons.inj h).1
      · exact absurd h (hshort hm hn)
    · by_cases hn : n < 16
      · exact absurd h.symm (hshort hn hm)
      · rw [Nat.toDigits_of_base_le hbase (Nat.le_of_not_lt hm),
          Nat.toDigits_of_base_le hbase (Nat.le_of_not_lt hn)] at h
        obtain ⟨hfirst, hlast⟩ := List.append_inj' h rfl
        have hquotient : m / 16 = n / 16 := ih (m / 16) (by omega) hfirst
        have hdigit : m % 16 = n % 16 :=
          hexDigit_inj _ (by omega) _ (by omega) (List.cons.inj hlast).1
        omega

theorem brace_not_mem_hexDigits (n : Nat) : '}' ∉ Nat.toDigits 16 n := by
  induction n using Nat.strongRecOn with
  | ind n ih =>
    by_cases hn : n < 16
    · rw [Nat.toDigits_of_lt_base hn, List.mem_singleton]
      exact (Nat.digitChar_ne '}' rfl).symm
    · rw [Nat.toDigits_of_base_le (by decide) (Nat.le_of_not_lt hn), List.mem_append,
        List.mem_singleton, not_or]
      exact ⟨ih (n / 16) (by omega), (Nat.digitChar_ne '}' rfl).symm⟩

namespace Quoted

/-! ## Characters -/

/-- The characters with an escape of their own, and the character that stands for each of them. -/
def shortEscapes : List (Char × Char) :=
  [('\x00', '0'), ('\t', 't'), ('\n', 'n'), ('\r', 'r'), ('"', '"'), ('\\', '\\')]

/-- A form of a character inside of quotes. -/
inductive Form (c : Char) : List Char → Prop
  | short {mark : Char} (h : (c, mark) ∈ shortEscapes) : Form c ['\\', mark]
  | plain (hq : c ≠ '"') (hb : c ≠ '\\') : Form c [c]
  | code : Form c ('\\' :: 'u' :: '{' :: (Nat.toDigits 16 c.toNat ++ ['}']))

theorem form_encodeChar (c : Char) : Form c (encodeChar c) := by
  have hshort : ∀ p ∈ shortEscapes, c = p.1 → Form c ['\\', p.2] := by
    intro p hp hc
    exact .short (hc ▸ hp)
  unfold encodeChar
  split
  · exact hshort ('\x00', '0') (by decide) ‹_›
  split
  · exact hshort ('\t', 't') (by decide) ‹_›
  split
  · exact hshort ('\n', 'n') (by decide) ‹_›
  split
  · exact hshort ('\r', 'r') (by decide) ‹_›
  split
  · exact hshort ('"', '"') (by decide) ‹_›
  split
  · exact hshort ('\\', '\\') (by decide) ‹_›
  split
  · exact .plain ‹_› ‹_›
  · exact .code

theorem exists_encodeChar_eq_cons (c : Char) : ∃ d cs, encodeChar c = d :: cs ∧ d ≠ '"' := by
  have hform := form_encodeChar c
  generalize encodeChar c = form at hform
  cases hform with
  | short => exact ⟨_, _, rfl, by decide⟩
  | plain hq => exact ⟨_, _, rfl, hq⟩
  | code => exact ⟨_, _, rfl, by decide⟩

theorem prefixCode_encodeChar : PrefixCode (fun _ => True) encodeChar := by
  have hmarks : ∀ p ∈ shortEscapes, p.2 ≠ 'u' ∧ ∀ q ∈ shortEscapes, p.2 = q.2 → p.1 = q.1 := by
    decide
  intro a _ b _ x y h
  have ha := form_encodeChar a
  have hb := form_encodeChar b
  generalize encodeChar a = form at ha h
  generalize encodeChar b = form' at hb h
  cases ha with
  | @short mark hmark =>
    cases hb with
    | @short mark' hmark' =>
      obtain ⟨heq, hxy⟩ := List.cons.inj (List.cons.inj h).2
      exact ⟨(hmarks _ hmark).2 _ hmark' heq, hxy⟩
    | plain _ hb => exact absurd (List.cons.inj h).1.symm hb
    | code => exact absurd (List.cons.inj (List.cons.inj h).2).1 (hmarks _ hmark).1
  | plain _ ha =>
    cases hb with
    | short => exact absurd (List.cons.inj h).1 ha
    | plain => exact List.cons.inj h
    | code => exact absurd (List.cons.inj h).1 ha
  | code =>
    cases hb with
    | @short mark hmark =>
      exact absurd (List.cons.inj (List.cons.inj h).2).1.symm (hmarks _ hmark).1
    | plain _ hb => exact absurd (List.cons.inj h).1.symm hb
    | code =>
      have hdigits : Nat.toDigits 16 a.toNat ++ ['}'] ++ x = Nat.toDigits 16 b.toNat ++ ['}'] ++ y :=
        (List.cons.inj (List.cons.inj (List.cons.inj h).2).2).2
      rw [List.append_assoc, List.append_assoc] at hdigits
      obtain ⟨hdigits, hxy⟩ := append_stop_inj (brace_not_mem_hexDigits _)
        (brace_not_mem_hexDigits _) hdigits
      exact ⟨Char.toNat_inj.1 (hexDigits_inj hdigits), hxy⟩

/-! ## Texts -/

theorem encode_append (text x : List Char) :
    encode text ++ x = '"' :: (text.flatMap encodeChar ++ '"' :: x) := by
  simp [encode]

theorem prefixCode_encode : PrefixCode (fun _ => True) encode := by
  intro a _ b _ x y h
  rw [encode_append, encode_append] at h
  exact prefixCode_encodeChar.flatMap_inj (fun c _ => exists_encodeChar_eq_cons c)
    (fun _ _ => trivial) (fun _ _ => trivial) (List.cons.inj h).2

theorem quote_inj {a b : List Char} (h : quote a = quote b) : a = b := by
  have hlist : encode a ++ [] = encode b ++ [] := by
    rw [List.append_nil, List.append_nil]
    exact String.ofList_injective h
  exact (prefixCode_encode a trivial b trivial _ _ hlist).1

end Quoted
end Text
end RecordTables
