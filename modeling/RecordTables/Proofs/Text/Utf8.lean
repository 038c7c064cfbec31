import Mathlib.Data.String.Basic
import Mathlib.Tactic.IntervalCases
import RecordTables.Text.Utf8

/-!
Texts and their bytes.

The bytes of a text are those of its characters, one after the other, and reading them gives the
characters back (`pieces_bytesOf`).  Which bytes may follow depends on the first byte of a character,
and a character is never written in a form that its first byte rules out.
-/

namespace RecordTables
namespace Text

theorem bytesOf_inj {a b : String} : bytesOf a = bytesOf b ↔ a = b := by
  constructor
  · intro h
    exact String.toByteArray_inj.1 (ByteArray.ext (Array.toList_inj.1 h))
  · intro h
    rw [h]

theorem bytesOf_eq_flatMap (text : String) :
    bytesOf text = text.toList.flatMap String.utf8EncodeChar := by
  have hbytes : text.toByteArray = text.toList.utf8Encode := String.utf8Encode_toList.symm
  unfold bytesOf String.toUTF8
  rw [hbytes, List.utf8Encode, List.toList_data_toByteArray]

theorem bytesOf_append (a b : String) : bytesOf (a ++ b) = bytesOf a ++ bytesOf b := by
  simp only [bytesOf_eq_flatMap, String.toList_append, List.flatMap_append]

namespace Utf8

/-! ## First bytes -/

theorem start_one {n : Nat} (h : n < 128) :
    start (UInt8.ofNat n) = .inl (.char (Char.ofNat n)) := by
  have hbyte : (UInt8.ofNat n).toNat = n := UInt8.toNat_ofNat_of_lt (Nat.lt_trans h (by decide))
  have hlt : UInt8.ofNat n < 0x80 := by
    rw [UInt8.lt_iff_toNat_lt, hbyte]
    exact h
  unfold start
  rw [if_pos hlt, hbyte]

theorem start_two {n : Nat} (hl : 2 ≤ n) (hh : n < 32) :
    start (UInt8.ofNat (n + 192)) = .inr ⟨1, 0x80, 0xBF, n, 1⟩ := by
  interval_cases n <;> rfl

/-- After 0 come no short forms, after 13 no surrogates. -/
theorem start_three {n : Nat} (h : n < 16) :
    start (UInt8.ofNat (n + 224)) =
      .inr ⟨2, if n = 0 then 0xA0 else 0x80, if n = 13 then 0x9F else 0xBF, n, 1⟩ := by
  interval_cases n <;> rfl

/-- After 0 come no short forms, after 4 nothing above the last code point. -/
theorem start_four {n : Nat} (h : n < 5) :
    start (UInt8.ofNat (n + 240)) =
      .inr ⟨3, if n = 0 then 0x90 else 0x80, if n = 4 then 0x8F else 0xBF, n, 1⟩ := by
  interval_cases n <;> rfl

/-! ## Further bytes -/

section

variable {low high : UInt8} {n code taken : Nat}

theorem within_of_continues (hn : n < 64) (hl : low.toNat ≤ n + 128) (hh : n + 128 ≤ high.toNat) :
    (UInt8.ofNat (n + 128)).toNat = n + 128 ∧
      low ≤ UInt8.ofNat (n + 128) ∧ UInt8.ofNat (n + 128) ≤ high := by
  have hbyte : (UInt8.ofNat (n + 128)).toNat = n + 128 := by
    apply UInt8.toNat_ofNat_of_lt
    show n + 128 < 256
    omega
  rw [UInt8.le_iff_toNat_le, UInt8.le_iff_toNat_le, hbyte]
  exact ⟨rfl, hl, hh⟩

theorem piecesFrom_more {needed : Nat} (hn : n < 64) (hl : low.toNat ≤ n + 128)
    (hh : n + 128 ≤ high.toNat) (bytes : List UInt8) :
    piecesFrom (some ⟨needed + 2, low, high, code, taken⟩) (UInt8.ofNat (n + 128) :: bytes) =
      piecesFrom (some ⟨needed + 1, 0x80, 0xBF, code * 64 + n, taken + 1⟩) bytes := by
  obtain ⟨hbyte, hwithin⟩ := within_of_continues hn hl hh
  have hneeded : needed + 2 ≠ 1 := by omega
  rw [piecesFrom, if_pos hwithin, if_neg hneeded, Pending.add, hbyte, Nat.add_sub_cancel]
  rfl

theorem piecesFrom_last (hn : n < 64) (bytes : List UInt8) :
    piecesFrom (some ⟨1, 0x80, 0xBF, code, taken⟩) (UInt8.ofNat (n + 128) :: bytes) =
      .char (Char.ofNat (code * 64 + n)) :: piecesFrom none bytes := by
  have hl : (0x80 : UInt8).toNat ≤ n + 128 := Nat.le_add_left 128 n
  have hh : n + 128 ≤ (0xBF : UInt8).toNat := by
    show n + 128 ≤ 191
    omega
  obtain ⟨hbyte, hwithin⟩ := within_of_continues hn hl hh
  rw [piecesFrom, if_pos hwithin, if_pos rfl, Pending.add, hbyte, Nat.add_sub_cancel]

end

/-! ## Characters -/

section

variable {v : Nat} (bytes : List UInt8)

theorem piecesFrom_two (hl : 127 < v) (hh : v ≤ 2047) :
    piecesFrom none (UInt8.ofNat (v / 64 % 32 + 192) :: UInt8.ofNat (v % 64 + 128) :: bytes) =
      .char (Char.ofNat v) :: piecesFrom none bytes := by
  have hcode : v / 64 % 32 * 64 + v % 64 = v := by omega
  rw [piecesFrom, start_two (by omega) (by omega)]
  simp only
  rw [piecesFrom_last (by omega), hcode]

theorem piecesFrom_three (hl : 2047 < v) (hh : v ≤ 65535) (hv : v < 0xD800 ∨ 0xDFFF < v) :
    piecesFrom none (UInt8.ofNat (v / 4096 % 16 + 224) :: UInt8.ofNat (v / 64 % 64 + 128) ::
        UInt8.ofNat (v % 64 + 128) :: bytes) =
      .char (Char.ofNat v) :: piecesFrom none bytes := by
  have hcode : (v / 4096 % 16 * 64 + v / 64 % 64) * 64 + v % 64 = v := by omega
  have hlow : (if v / 4096 % 16 = 0 then (0xA0 : UInt8) else 0x80).toNat ≤ v / 64 % 64 + 128 := by
    split
    · show 160 ≤ _
      omega
    · exact Nat.le_add_left 128 _
  have hhigh : v / 64 % 64 + 128 ≤ (if v / 4096 % 16 = 13 then (0x9F : UInt8) else 0xBF).toNat := by
    split
    · show _ ≤ 159
      omega
    · show _ ≤ 191
      omega
  rw [piecesFrom, start_three (by omega)]
  simp only
  rw [piecesFrom_more (by omega) hlow hhigh, piecesFrom_last (by omega), hcode]

theorem piecesFrom_four (hl : 65535 < v) (hh : v < 0x110000) :
    piecesFrom none (UInt8.ofNat (v / 262144 % 8 + 240) :: UInt8.ofNat (v / 4096 % 64 + 128) ::
        UInt8.ofNat (v / 64 % 64 + 128) :: UInt8.ofNat (v % 64 + 128) :: bytes) =
      .char (Char.ofNat v) :: piecesFrom none bytes := by
  have hcode : ((v / 262144 % 8 * 64 + v / 4096 % 64) * 64 + v / 64 % 64) * 64 + v % 64 = v := by
    omega
  have hlow : (if v / 262144 % 8 = 0 then (0x90 : UInt8) else 0x80).toNat ≤
      v / 4096 % 64 + 128 := by
    split
    · show 144 ≤ _
      omega
    · exact Nat.le_add_left 128 _
  have hhigh : v / 4096 % 64 + 128 ≤
      (if v / 262144 % 8 = 4 then (0x8F : UInt8) else 0xBF).toNat := by
    split
    · show _ ≤ 143
      omega
    · show _ ≤ 191
      omega
  have hthird : v / 64 % 64 + 128 ≤ (0xBF : UInt8).toNat := by
    show _ ≤ 191
    omega
  rw [piecesFrom, start_four (by omega)]
  simp only
  rw [piecesFrom_more (by omega) hlow hhigh,
    piecesFrom_more (by omega) (Nat.le_add_left 128 _) hthird,
    piecesFrom_last (by omega), hcode]

/-- The bytes of a character are read as the character. -/
theorem piecesFrom_encodeChar (c : Char) :
    piecesFrom none (String.utf8EncodeChar c ++ bytes) = .char c :: piecesFrom none bytes := by
  have hchar : Char.ofNat c.val.toNat = c := Char.ofNat_toNat c
  have hvalid : c.val.toNat < 0xD800 ∨ 0xDFFF < c.val.toNat ∧ c.val.toNat < 0x110000 := c.valid
  unfold String.utf8EncodeChar
  generalize c.val.toNat = v at hchar hvalid
  simp only
  by_cases hone : v ≤ 127
  · rw [if_pos hone, List.singleton_append, piecesFrom, start_one (by omega), hchar]
  rw [if_neg hone]
  by_cases htwo : v ≤ 2047
  · rw [if_pos htwo, ← hchar]
    exact piecesFrom_two bytes (by omega) htwo
  rw [if_neg htwo]
  by_cases hthree : v ≤ 65535
  · rw [if_pos hthree, ← hchar]
    exact piecesFrom_three bytes (by omega) hthree (by omega)
  · rw [if_neg hthree, ← hchar]
    exact piecesFrom_four bytes (by omega) (by omega)

end

theorem pieces_bytesOf (text : String) : pieces (bytesOf text) = text.toList.map .char := by
  unfold pieces
  rw [bytesOf_eq_flatMap]
  induction text.toList with
  | nil => rfl
  | cons c cs ih => rw [List.flatMap_cons, List.map_cons, piecesFrom_encodeChar, ih]

theorem lossy_bytesOf (text : String) : lossy (bytesOf text) = text.toList := by
  unfold lossy
  rw [pieces_bytesOf, List.map_map]
  exact List.map_id _

/-- A text is read as it was written. -/
theorem decode?_bytesOf (text : String) : decode? (bytesOf text) = some text := by
  have hwell : isWellFormed (bytesOf text) = true := by
    unfold isWellFormed
    rw [pieces_bytesOf, List.all_map]
    exact List.all_eq_true.2 fun _ _ => rfl
  unfold decode?
  rw [if_pos hwell, lossy_bytesOf, String.ofList_toList]

end Utf8
end Text
end RecordTables
