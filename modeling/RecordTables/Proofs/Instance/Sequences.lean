import Mathlib.Algebra.Group.Nat.Defs
import RecordTables.Instance.LuaTable

/-!
Tables that hold a sequence.

The table that a getter gives was grown item by item, so that it has room for the next power of two.
The search for its border begins at the end of this room, where nothing may be, and has to come back
to the last item.  As none of the items is nil, there is one border only, and the table has just the
items that were put in: `toList_grown`.
-/

namespace RecordTables

namespace Storage

variable {isSet : Nat → Bool} {count : Nat}

/-- The search finds the end of an initial segment. -/
theorem between_eq {low high : Nat}
    (h : ∀ m, 1 ≤ m → m ≤ high → (isSet m = true ↔ m ≤ count)) (hlow : low ≤ count)
    (hhigh : count < high) : between isSet low high = count := by
  fun_induction between isSet low high with
  | case1 low high hnext => omega
  | case2 low high hnext middle hset ih =>
    have hmiddle : middle ≤ count := (h middle (by omega) (by omega)).1 hset
    exact ih h hmiddle hhigh
  | case3 low high hnext middle hset ih =>
    have hmiddle : ¬middle ≤ count := fun hle => hset ((h middle (by omega) (by omega)).2 hle)
    exact ih (fun m hm hle => h m hm (by omega)) hlow (by omega)

/-- The border of storage that was never searched is the end of the keys that are set, if these are
the first ones. -/
theorem border_ofRoom {room : Nat} (hroom : count ≤ room)
    (h : ∀ m, 1 ≤ m → m ≤ room → (isSet m = true ↔ m ≤ count))
    (hnext : isSet (count + 1) = false) : ((ofRoom room).border isSet).1 = count := by
  show (if 0 < room ∧ (!isSet room) = true then _ else _ : Nat × Option Nat).1 = count
  by_cases hend : 0 < room ∧ (!isSet room) = true
  · have hnot : ¬room ≤ count := by
      intro hle
      rw [(h room hend.1 (Nat.le_refl room)).2 hle] at hend
      exact Bool.noConfusion hend.2
    rw [if_pos hend]
    show (if 2 ≤ room ∧ isSet (room - 1) = true then _ else _ : Nat × Option Nat).1 = count
    by_cases hlast : 2 ≤ room ∧ isSet (room - 1) = true
    · rw [if_pos hlast]
      have hle := (h (room - 1) (by omega) (by omega)).1 hlast.2
      show room - 1 = count
      omega
    · rw [if_neg hlast]
      exact between_eq h (Nat.zero_le count) (Nat.lt_of_not_le hnot)
  · have hcount : count = room := by
      by_cases hzero : room = 0
      · omega
      · have hset : isSet room = true := by simpa [Nat.pos_of_ne_zero hzero] using hend
        have hle := (h room (Nat.pos_of_ne_zero hzero) (Nat.le_refl room)).1 hset
        omega
    rw [if_neg hend, if_pos (show (ofRoom room).guess = none from rfl), hcount.symm]
    show borderFrom isSet count = count
    unfold borderFrom
    rw [hnext]
    rfl

theorem le_powerAbove (n : Nat) : n ≤ powerAbove n := by
  unfold powerAbove
  by_cases hn : n ≤ 1
  · rw [if_pos hn]
    exact hn
  · rw [if_neg hn]
    have hlt : n - 1 < 2 ^ (Nat.log2 (n - 1) + 1) := Nat.lt_log2_self
    show n ≤ 2 ^ (Nat.log2 (n - 1) + 1)
    exact Nat.le_of_pred_lt hlt

/-- A power of two is above a number as soon as the number is at most that power. -/
theorem powerAbove_le {n k : Nat} (h : n ≤ 2 ^ k) : powerAbove n ≤ 2 ^ k := by
  unfold powerAbove
  by_cases hn : n ≤ 1
  · rw [if_pos hn]
    exact Nat.one_le_two_pow
  · rw [if_neg hn]
    have hlog : Nat.log2 (n - 1) < k := (Nat.log2_lt (by omega)).2 (by omega)
    exact Nat.pow_le_pow_right Nat.two_pos hlog

end Storage

namespace LuaTable

variable {items : List Value}

theorem position?_ofNat {count n : Nat} (hcount : count ≤ lengthLimit) (hn : n + 1 ≤ 2 ^ 63) :
    position? count (.integer (Int64.ofNat (n + 1))) = if n < count then some n else none := by
  unfold lengthLimit at hcount
  show (if 1 ≤ (Int64.ofNat (n + 1)).toInt ∧ (Int64.ofNat (n + 1)).toInt ≤ count
    then some ((Int64.ofNat (n + 1)).toInt.toNat - 1) else none) = _
  by_cases hmax : n + 1 = 2 ^ 63
  · -- the one number that is no positive integer of Lua
    have hint : (Int64.ofNat (n + 1)).toInt < 1 := by
      rw [hmax]
      decide
    rw [if_neg (by omega), if_neg (by omega)]
  · have hint : (Int64.ofNat (n + 1)).toInt = ((n + 1 : Nat) : Int) :=
      Int64.toInt_ofNat_of_lt (by omega)
    rw [hint]
    by_cases hlt : n < count
    · have hindex : ((n + 1 : Nat) : Int).toNat - 1 = n := by omega
      rw [if_pos (by omega), if_pos hlt, hindex]
    · rw [if_neg (by omega), if_neg hlt]

theorem rawGet_grown (hitems : items.length ≤ lengthLimit) {n : Nat} (hn : n + 1 ≤ 2 ^ 63) :
    (grown items).rawGet (.integer (Int64.ofNat (n + 1))) = items.getD n .nil := by
  have hposition : position? (grown items).items.size (Value.integer (Int64.ofNat (n + 1))).key =
      if n < items.length then some n else none := position?_ofNat hitems hn
  unfold rawGet
  rw [hposition, List.getD_eq_getElem?_getD]
  by_cases hlt : n < items.length
  · rw [if_pos hlt]
    simp [grown]
  · rw [if_neg hlt, List.getElem?_eq_none (Nat.le_of_not_lt hlt)]
    rfl

variable (hitems : items.length ≤ lengthLimit) (hset : ∀ v ∈ items, v ≠ .nil)

include hitems hset

theorem isSetAt_grown_iff {m : Nat} (hm : 1 ≤ m) (hle : m ≤ 2 ^ 63) :
    (grown items).isSetAt m = true ↔ m ≤ items.length := by
  obtain ⟨n, rfl⟩ : ∃ n, m = n + 1 := ⟨m - 1, by omega⟩
  unfold isSetAt isSet
  rw [rawGet_grown hitems hle, decide_eq_true_iff, List.getD_eq_getElem?_getD]
  constructor
  · intro h
    refine Nat.lt_of_not_le fun hle => ?_
    rw [List.getElem?_eq_none hle] at h
    exact h rfl
  · intro h
    rw [List.getElem?_eq_getElem h]
    exact hset _ (List.getElem_mem h)

theorem length_grown : (grown items).length = items.length := by
  have hlimit : items.length ≤ 2 ^ 63 - 1 := hitems
  have hnext : (grown items).isSetAt (items.length + 1) = false := by
    refine Bool.eq_false_iff.2 fun h => ?_
    have hle := (isSetAt_grown_iff hitems hset (by omega) (by omega)).1 h
    omega
  have hborder : ((grown items).storage.border (grown items).isSetAt).1 = items.length := by
    show ((Storage.ofRoom (if items.length = 0 then 0
      else Storage.powerAbove items.length)).border (grown items).isSetAt).1 = items.length
    by_cases hzero : items.length = 0
    · rw [if_pos hzero]
      exact Storage.border_ofRoom (Nat.le_of_eq hzero) (fun m hm hle => by omega) hnext
    · rw [if_neg hzero]
      have hroom : Storage.powerAbove items.length ≤ 2 ^ 63 := Storage.powerAbove_le (by omega)
      exact Storage.border_ofRoom (Storage.le_powerAbove _)
        (fun m hm hle => isSetAt_grown_iff hitems hset hm (Nat.le_trans hle hroom)) hnext
  unfold length
  rw [hborder]
  exact Nat.min_eq_left hitems

/-- A grown table has the items that it was grown from. -/
theorem toList_grown : (grown items).toList = items := by
  have hlimit : items.length ≤ 2 ^ 63 - 1 := hitems
  unfold toList
  rw [length_grown hitems hset]
  refine List.ext_getElem (by rw [List.length_map, List.length_range]) fun n hn hn' => ?_
  rw [List.getElem_map, List.getElem_range, rawGet_grown hitems (by omega),
    List.getD_eq_getElem?_getD, List.getElem?_eq_getElem hn']
  rfl

end LuaTable
end RecordTables
