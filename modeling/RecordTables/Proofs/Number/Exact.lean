import Mathlib.Algebra.Order.Field.Rat
import Mathlib.Algebra.Order.Ring.Cast
import Mathlib.Data.Rat.Cast.Defs
import Mathlib.Order.Compare
import RecordTables.Value

/-!
The exact values of floating point numbers.

`Binary64.value?` gives the rational number that a pattern is.  The conversions to an integer work
on mantissa and exponent, and `Value.exactInteger?_eq_some_iff` says what comes of it: a number is
taken for an integer exactly if it has the value of one that fits.  A record goes another way, over a
test for a fraction, two comparisons and a cast, and comes to the same
(`Value.castInteger?_eq_exactInteger?`).
-/

namespace RecordTables
namespace Binary64

/-- The value of a pattern, if it is one of a finite number. -/
def value? (x : Binary64) : Option ℚ :=
  match x.decode with
  | .finite negative mantissa exponent => some ((signed negative mantissa : ℚ) * 2 ^ exponent)
  | _ => none

theorem value?_unique {x : Binary64} {n m : Int} (hn : x.value? = some (n : ℚ))
    (hm : x.value? = some (m : ℚ)) : n = m :=
  Int.cast_injective (Option.some.inj (hn.symm.trans hm))

theorem signed_mul (negative : Bool) (m k : Nat) :
    signed negative (m * k) = signed negative m * k := by
  cases negative <;> simp [signed]

theorem dvd_signed_iff (negative : Bool) (m k : Nat) :
    (k : Int) ∣ signed negative m ↔ k ∣ m := by
  cases negative <;> simp [signed, Int.natCast_dvd_natCast]

/-- A mantissa over a power of two is an integer exactly if the power divides it. -/
theorem signed_eq_mul_iff {negative : Bool} {m k : Nat} (hk : 0 < k) {n : Int} :
    signed negative m = n * k ↔ m % k = 0 ∧ signed negative (m / k) = n := by
  have hk' : (k : Int) ≠ 0 := by omega
  constructor
  · intro h
    have hdvd : k ∣ m := (dvd_signed_iff negative m k).1 ⟨n, by rw [h, Int.mul_comm]⟩
    obtain ⟨q, rfl⟩ := hdvd
    refine ⟨Nat.mul_mod_right k q, ?_⟩
    rw [Nat.mul_div_cancel_left q hk]
    rw [Nat.mul_comm, signed_mul] at h
    exact Int.eq_of_mul_eq_mul_right hk' h
  · intro h
    obtain ⟨q, rfl⟩ := Nat.dvd_of_mod_eq_zero h.1
    rw [← h.2, Nat.mul_div_cancel_left q hk, Nat.mul_comm, signed_mul]

theorem toInt?_eq_some_iff {x : Binary64} {n : Int} :
    x.toInt? = some n ↔ x.value? = some (n : ℚ) := by
  unfold toInt? value?
  cases x.decode with
  | nan => exact ⟨nofun, nofun⟩
  | infinite negative => exact ⟨nofun, nofun⟩
  | finite negative m e =>
    simp only [Nat.pow_eq]
    by_cases he : 0 ≤ e
    · obtain ⟨k, rfl⟩ := Int.eq_ofNat_of_zero_le he
      have hpow : (signed negative m : ℚ) * 2 ^ (k : Int) =
          (signed negative (m * 2 ^ k) : ℚ) := by
        rw [signed_mul, zpow_natCast]
        push_cast
        rfl
      rw [if_pos he, Int.toNat_natCast, hpow, Option.some.injEq, Option.some.injEq, Int.cast_inj]
    · obtain ⟨k, hk⟩ : ∃ k : Nat, -e = k := Int.eq_ofNat_of_zero_le (by omega)
      have hpow : (signed negative m : ℚ) * 2 ^ e = (n : ℚ) ↔
          signed negative m = n * (2 ^ k : Nat) := by
        have hne : (2 : ℚ) ^ k ≠ 0 := pow_ne_zero k two_ne_zero
        rw [← neg_neg e, hk, zpow_neg, zpow_natCast, ← div_eq_mul_inv, div_eq_iff hne]
        rw [← Int.cast_inj (α := ℚ)]
        push_cast
        rfl
      rw [if_neg he, hk, Int.toNat_natCast, Option.some.injEq, hpow,
        signed_eq_mul_iff (Nat.two_pow_pos k)]
      by_cases hdvd : m % 2 ^ k = 0
      · rw [if_pos hdvd, Option.some.injEq, and_iff_right hdvd]
      · rw [if_neg hdvd]
        exact ⟨nofun, fun h => absurd h.1 hdvd⟩

theorem value_eq_multiple (negative : Bool) (m : Nat) {e power : Int} (h : power ≤ e) :
    (signed negative m : ℚ) * 2 ^ e = multiple negative m e power * 2 ^ power := by
  obtain ⟨k, hk⟩ : ∃ k : Nat, e - power = k := Int.eq_ofNat_of_zero_le (by omega)
  have hpow : (2 : ℚ) ^ e = 2 ^ k * 2 ^ power := by
    rw [← zpow_natCast, ← zpow_add₀ two_ne_zero, ← hk, Int.sub_add_cancel]
  unfold multiple
  rw [hk, Int.toNat_natCast, Nat.pow_eq, signed_mul, hpow]
  push_cast
  exact (mul_assoc _ _ _).symm

/-- Numbers compare as their values do. -/
theorem compare?_eq {x y : Binary64} {a b : ℚ} (ha : x.value? = some a) (hb : y.value? = some b) :
    x.compare? y = some (compare a b) := by
  unfold value? at ha hb
  unfold compare?
  cases hx : x.decode with
  | nan => simp [hx] at ha
  | infinite negative => simp [hx] at ha
  | finite s m e =>
    cases hy : y.decode with
    | nan => simp [hy] at hb
    | infinite negative => simp [hy] at hb
    | finite s' m' e' =>
      simp only [hx, hy, Option.some.injEq] at ha hb ⊢
      have hpos : (0 : ℚ) < 2 ^ min e e' := zpow_pos two_pos _
      have hmono : StrictMono fun n : Int => (n : ℚ) * 2 ^ min e e' := fun _ _ h =>
        mul_lt_mul_of_pos_right (Int.cast_lt.2 h) hpos
      rw [← ha, ← hb, value_eq_multiple s m (min_le_left e e'),
        value_eq_multiple s' m' (min_le_right e e'), ← cmp_eq_compare, ← cmp_eq_compare]
      exact (hmono.cmp_map_eq _ _).symm

/-- An integer is what is left of a number that has no fraction when its fraction is dropped. -/
theorem toInt?_eq_ite (x : Binary64) : x.toInt? = if x.isWhole then x.truncate? else none := by
  unfold toInt? isWhole truncate?
  cases x.decode with
  | nan => rfl
  | infinite negative => rfl
  | finite negative m e =>
    simp only [Nat.pow_eq, decide_eq_true_eq]
    by_cases he : 0 ≤ e
    · have hneg : (-e).toNat = 0 := by omega
      rw [if_pos he, hneg, Nat.pow_zero, Nat.mod_one, if_pos rfl, Nat.div_one]
    · have hpos : e.toNat = 0 := by omega
      rw [if_neg he, hpos, Nat.pow_zero, Nat.mul_one]

theorem exists_truncate?_of_isWhole {x : Binary64} (h : x.isWhole = true) :
    ∃ n, x.truncate? = some n := by
  unfold isWhole at h
  unfold truncate?
  cases hx : x.decode with
  | finite negative m e => exact ⟨_, rfl⟩
  | _ => simp [hx] at h

theorem toInt64_of_truncate? {x : Binary64} {n : Int} (h : x.truncate? = some n)
    (hlow : Int64.minValue.toInt ≤ n) (hhigh : n ≤ Int64.maxValue.toInt) :
    x.toInt64 = .ofInt n := by
  unfold truncate? at h
  unfold toInt64
  cases hx : x.decode with
  | nan => simp [hx] at h
  | infinite negative => simp [hx] at h
  | finite negative m e =>
    simp only [hx, Option.some.injEq] at h ⊢
    rw [h, min_eq_right hhigh, max_eq_right hlow]

end Binary64

/-- A number passes for an integer exactly if it has the value of this integer. -/
theorem Value.exactInteger?_eq_some_iff {x : Binary64} {i : Int64} :
    exactInteger? x = some i ↔ x.value? = some (i.toInt : ℚ) := by
  unfold exactInteger? fitsInteger
  rw [Option.map_eq_some_iff]
  constructor
  · intro h
    obtain ⟨n, hn, rfl⟩ := h
    rw [Option.filter_eq_some_iff, decide_eq_true_eq] at hn
    obtain ⟨hn, hlow, hhigh⟩ := hn
    rw [Int64.toInt_ofInt_of_le hlow hhigh]
    exact Binary64.toInt?_eq_some_iff.1 hn
  · intro h
    refine ⟨i.toInt, ?_, Int64.ofInt_toInt i⟩
    rw [Option.filter_eq_some_iff, decide_eq_true_eq]
    exact ⟨Binary64.toInt?_eq_some_iff.2 h, Int64.le_toInt i, Int64.toInt_lt i⟩

/-- The greatest integer is no number of this format: it is rounded up to a number that is itself
too large, and all numbers below that one are small enough. -/
theorem Value.castInteger?_eq_exactInteger? (x : Binary64) : castInteger? x = exactInteger? x := by
  have hlow : (Binary64.ofInt Int64.minValue.toInt).value? = some ((-2 ^ 63 : Int) : ℚ) :=
    Binary64.toInt?_eq_some_iff.1 (by decide +kernel)
  have hhigh : (Binary64.ofInt Int64.maxValue.toInt).value? = some ((2 ^ 63 : Int) : ℚ) :=
    Binary64.toInt?_eq_some_iff.1 (by decide +kernel)
  have hint := x.toInt?_eq_ite
  unfold castInteger? exactInteger?
  cases hn : x.toInt? with
  | none =>
    rw [hn] at hint
    have hwhole : x.isWhole = false := by
      by_contra hwhole
      rw [Bool.not_eq_false] at hwhole
      obtain ⟨n, htruncate⟩ := Binary64.exists_truncate?_of_isWhole hwhole
      rw [if_pos hwhole, htruncate] at hint
      cases hint
    rw [hwhole]
    rfl
  | some n =>
    have hvalue := Binary64.toInt?_eq_some_iff.1 hn
    rw [hn] at hint
    obtain ⟨hwhole, htruncate⟩ : x.isWhole = true ∧ x.truncate? = some n := by
      split at hint
      · next hwhole => exact ⟨hwhole, hint.symm⟩
      · cases hint
    have hge : (x.compare? (.ofInt Int64.minValue.toInt)).any Ordering.isGE = true ↔
        -2 ^ 63 ≤ n := by
      rw [Binary64.compare?_eq hvalue hlow, Option.any_some, Ordering.isGE_iff_ne_lt,
        compare_lt_iff_lt, not_lt, Int.cast_le]
    have hlt : (x.compare? (.ofInt Int64.maxValue.toInt)).any Ordering.isLT = true ↔
        n < 2 ^ 63 := by
      rw [Binary64.compare?_eq hvalue hhigh, Option.any_some, Ordering.isLT_iff_eq_lt,
        compare_lt_iff_lt, Int.cast_lt]
    simp only [hwhole, Bool.true_and, Bool.and_eq_true, hge, hlt]
    by_cases hfits : -2 ^ 63 ≤ n ∧ n < 2 ^ 63
    · have hcast := Binary64.toInt64_of_truncate? htruncate hfits.1 (Int.le_of_lt_add_one hfits.2)
      have hkept : fitsInteger n = true := decide_eq_true hfits
      rw [if_pos hfits, hcast, Option.filter_some, if_pos hkept]
      rfl
    · have hdropped : ¬fitsInteger n = true := fun h => hfits (of_decide_eq_true h)
      rw [if_neg hfits, Option.filter_some, if_neg hdropped]
      rfl

theorem Value.castInteger?_eq_some_iff {x : Binary64} {i : Int64} :
    castInteger? x = some i ↔ x.value? = some (i.toInt : ℚ) := by
  rw [castInteger?_eq_exactInteger?, exactInteger?_eq_some_iff]

end RecordTables
