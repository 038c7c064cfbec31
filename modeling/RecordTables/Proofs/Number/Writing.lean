import Mathlib.Data.Nat.Digits.Defs
import RecordTables.Record.Text

/-!
The characters of written numbers.

Numbers are written with digits and few other characters, so that what stands around a number in a
text can be told from it, and an integer is told by its text.
-/

namespace RecordTables

/-- The characters of written numbers: digits, the sign and the point, and the letters of what is no
number or too large for one. -/
def isNumeric (c : Char) : Bool := c.isDigit || c ∈ ['-', '.', 'N', 'a', 'i', 'n', 'f']

theorem isNumeric_of_mem_digits {n : Nat} {c : Char} (h : c ∈ Nat.toDigits 10 n) : isNumeric c := by
  have hdigit : c.isDigit = true := Nat.isDigit_of_mem_toDigits (by decide) (by decide) h
  rw [isNumeric, hdigit, Bool.true_or]

theorem isNumeric_of_mem_repr {n : Nat} {c : Char} (h : c ∈ n.repr.toList) : isNumeric c := by
  rw [Nat.repr_eq_ofList_toDigits, String.toList_ofList] at h
  exact isNumeric_of_mem_digits h

theorem isNumeric_of_mem_int {n : Int} {c : Char} (h : c ∈ (toString n).toList) : isNumeric c := by
  have hint : toString n = if 0 ≤ n then n.toNat.repr else "-" ++ (-n).toNat.repr :=
    Int.repr_eq_if
  rw [hint] at h
  by_cases hn : 0 ≤ n
  · rw [if_pos hn] at h
    exact isNumeric_of_mem_repr h
  · rw [if_neg hn, String.toList_append, List.mem_append] at h
    rcases h with h | h
    · rw [List.mem_singleton.1 h]
      rfl
    · exact isNumeric_of_mem_repr h

/-- Different numbers have different digits. -/
theorem eq_of_repr_eq {n m : Nat} (h : n.repr = m.repr) : n = m := by
  rw [Nat.repr_eq_ofList_toDigits, Nat.repr_eq_ofList_toDigits] at h
  have hdigits : Nat.toDigits 10 n = Nat.toDigits 10 m := String.ofList_injective h
  rw [← Nat.ofDigitChars_toDigits (b := 10) (n := n) (by decide) (by decide), hdigits,
    Nat.ofDigitChars_toDigits (by decide) (by decide)]

theorem minus_notMem_repr (n : Nat) : '-' ∉ n.repr.toList := by
  intro h
  rw [Nat.repr_eq_ofList_toDigits, String.toList_ofList] at h
  exact absurd (Nat.isDigit_of_mem_toDigits (by decide) (by decide) h) (by decide)

/-- The same with signs: a number with a sign is not written like one without. -/
theorem int_eq_of_repr_eq {n m : Int} (h : n.repr = m.repr) : n = m := by
  rw [Int.repr_eq_if, Int.repr_eq_if] at h
  have hsign : ∀ a b : Nat, "-" ++ a.repr ≠ b.repr := by
    intro a b heq
    refine minus_notMem_repr b ?_
    rw [← heq, String.toList_append]
    exact List.mem_append_left _ List.mem_cons_self
  by_cases hn : 0 ≤ n <;> by_cases hm : 0 ≤ m
  · rw [if_pos hn, if_pos hm] at h
    have hdigits := eq_of_repr_eq h
    omega
  · rw [if_pos hn, if_neg hm] at h
    exact absurd h.symm (hsign _ _)
  · rw [if_neg hn, if_pos hm] at h
    exact absurd h (hsign _ _)
  · rw [if_neg hn, if_neg hm] at h
    have hdigits := eq_of_repr_eq ((String.append_right_inj _).1 h)
    omega

namespace Decimal

theorem isNumeric_of_mem_positional {d : Decimal} {c : Char} (h : c ∈ d.positional.toList) :
    isNumeric c := by
  have hzeros : ∀ k, c ∈ List.replicate k '0' → isNumeric c := by
    intro k hc
    rw [List.eq_of_mem_replicate hc]
    rfl
  have hpadded : ∀ k, c ∈ List.replicate k '0' ++ Nat.toDigits 10 d.coefficient → isNumeric c := by
    intro k hc
    rw [List.mem_append] at hc
    exact hc.elim (hzeros k) isNumeric_of_mem_digits
  unfold positional digits at h
  by_cases he : 0 ≤ d.exponent
  · rw [if_pos he, String.toList_ofList, List.mem_append] at h
    exact h.elim isNumeric_of_mem_digits (hzeros _)
  · rw [if_neg he, String.toList_ofList, List.mem_append, List.mem_cons] at h
    rcases h with h | rfl | h
    · exact hpadded _ (List.mem_of_mem_take h)
    · rfl
    · exact hpadded _ (List.mem_of_mem_drop h)

theorem isNumeric_of_mem_text {x : Binary64} {c : Char} (h : c ∈ (recordNumbers.text x).toList) :
    isNumeric c := by
  have hsigned : ∀ (negative : Bool) (text : String), (∀ c ∈ text.toList, isNumeric c) →
      c ∈ ((if negative then "-" else "") ++ text).toList → isNumeric c := by
    intro negative text htext hc
    rw [String.toList_append, List.mem_append] at hc
    rcases hc with hc | hc
    · cases negative with
      | false => cases hc
      | true =>
        rw [List.mem_singleton.1 hc]
        rfl
    · exact htext c hc
  have hnan : "NaN".toList.all isNumeric = true := rfl
  unfold Layout.text at h
  split at h
  · exact List.all_eq_true.1 hnan c h
  · exact hsigned _ "inf" (List.all_eq_true.1 rfl) h
  · exact hsigned _ "0" (List.all_eq_true.1 rfl) h
  · exact hsigned _ _ (fun _ => isNumeric_of_mem_positional) h

end Decimal
end RecordTables
