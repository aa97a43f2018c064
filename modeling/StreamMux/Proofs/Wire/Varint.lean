import Mathlib.Data.Nat.Log
import Mathlib.Tactic.Ring
import StreamMux.Varint

/-!
# The groups of a variable-length integer

Words are moved to natural numbers here: a group put at its place is a multiple of a power of two,
added to a value below that power.

* `Varint.toNat_next` — a group is put in front of those before it, and nothing is lost;
* `Varint.group_induction` — induction along the groups of a value;
* `Varint.length_encode` — the bytes of a value are as many as its bit length says.
-/

namespace StreamMux.Varint

/-! ### Groups as numbers -/

theorem toNat_low_group (value : UInt64) :
    ((value &&& 0x7f).toUInt8).toNat = value.toNat % 128 := by
  rw [UInt64.toNat_toUInt8, UInt64.toNat_and, show (0x7f : UInt64).toNat = 2 ^ 7 - 1 from rfl,
    Nat.and_two_pow_sub_one_eq_mod]
  omega

theorem high_bit_eq_zero_iff (byte : UInt8) : byte &&& 0x80 = 0 ↔ byte.toNat < 128 := by
  have key : ∀ i : Fin 256, i.val &&& 128 = i.val / 128 * 128 := by decide +kernel
  have hand : (byte &&& 0x80).toNat = byte.toNat / 128 * 128 := by
    rw [UInt8.toNat_and]
    exact key ⟨byte.toNat, byte.toNat_lt⟩
  rw [← UInt8.toNat_inj, hand]
  simp only [UInt8.toNat_zero]
  omega

theorem toNat_low_bits (byte : UInt8) : (byte &&& 0x7f).toNat = byte.toNat % 128 := by
  rw [UInt8.toNat_and, show (0x7f : UInt8).toNat = 2 ^ 7 - 1 from rfl,
    Nat.and_two_pow_sub_one_eq_mod]

theorem toNat_mark (byte : UInt8) (h : byte.toNat < 128) :
    (byte ||| 0x80).toNat = byte.toNat + 128 := by
  rw [UInt8.toNat_or, show (0x80 : UInt8).toNat = 2 ^ 7 * 1 from rfl, Nat.or_comm,
    ← Nat.two_pow_add_eq_or_of_lt h]
  omega

/-- Shifting a group to its place loses no bit of it, as long as it fits there. -/
theorem toNat_shift_group {group : UInt64} {index : Nat} (hindex : index < maxSize)
    (hfit : group.toNat * 2 ^ (7 * index) < 2 ^ 64) :
    (group <<< UInt64.ofNat (7 * index)).toNat = group.toNat * 2 ^ (7 * index) := by
  have hshift : (UInt64.ofNat (7 * index)).toNat % 64 = 7 * index := by
    unfold maxSize at hindex
    rw [UInt64.toNat_ofNat']
    omega
  rw [UInt64.toNat_shiftLeft, hshift, Nat.shiftLeft_eq, Nat.mod_eq_of_lt hfit]

/-- Putting a group at its place adds it, as long as both fit. -/
theorem toNat_add_group {value group : UInt64} {index : Nat} (hindex : index < maxSize)
    (hvalue : value.toNat < 2 ^ (7 * index)) (hfit : group.toNat * 2 ^ (7 * index) < 2 ^ 64) :
    (value ||| (group <<< UInt64.ofNat (7 * index))).toNat =
      value.toNat + group.toNat * 2 ^ (7 * index) := by
  rw [UInt64.toNat_or, toNat_shift_group hindex hfit, Nat.or_comm, Nat.mul_comm,
    ← Nat.two_pow_add_eq_or_of_lt hvalue]
  omega

theorem place_succ (index : Nat) : 2 ^ (7 * (index + 1)) = 128 * 2 ^ (7 * index) := by
  rw [show 7 * (index + 1) = 7 + 7 * index by omega, Nat.pow_add]

/-- A group on top of those before it stays below the next place. -/
theorem add_group_lt {before group index : Nat} (hbefore : before < 2 ^ (7 * index))
    (hgroup : group < 128) : before + group * 2 ^ (7 * index) < 2 ^ (7 * (index + 1)) := by
  have hsmall : group * 2 ^ (7 * index) ≤ 127 * 2 ^ (7 * index) :=
    Nat.mul_le_mul_right _ (by omega)
  rw [place_succ]
  omega

/-! ### Writing, one group at a time -/

theorem shift_eq_zero_iff (value : UInt64) : value >>> 7 = 0 ↔ value.toNat < 128 := by
  rw [← UInt64.toNat_inj, toNat_shiftRight_group]
  simp only [UInt64.toNat_zero]
  omega

theorem encode_of_lt {value : UInt64} (h : value.toNat < 128) :
    encode value = [(value &&& 0x7f).toUInt8] := by
  rw [encode]
  simp [(shift_eq_zero_iff value).mpr h]

theorem encode_of_le {value : UInt64} (h : 128 ≤ value.toNat) :
    encode value = ((value &&& 0x7f).toUInt8 ||| 0x80) :: encode (value >>> 7) := by
  have hne : value >>> 7 ≠ 0 := fun h0 => by
    have := (shift_eq_zero_iff value).mp h0
    omega
  rw [encode]
  simp [hne]

theorem group_induction {P : UInt64 → Prop}
    (last : ∀ value : UInt64, value.toNat < 128 → P value)
    (more : ∀ value : UInt64, 128 ≤ value.toNat → P (value >>> 7) → P value) (value : UInt64) :
    P value := by
  induction hn : value.toNat using Nat.strongRecOn generalizing value with
  | ind n ih =>
    by_cases h : value.toNat < 128
    · exact last value h
    · have hshift := toNat_shiftRight_group value
      exact more value (by omega) (ih (value >>> 7).toNat (by omega) (value >>> 7) rfl)

/-- The bit length is the least number of bits that a value has room in. -/
theorem bitLength_le_iff (value : UInt64) (count : Nat) :
    bitLength value ≤ count ↔ value.toNat < 2 ^ count := by
  unfold bitLength
  split
  · rename_i hzero
    subst hzero
    exact iff_of_true (Nat.zero_le count) (Nat.two_pow_pos count)
  · rename_i hne
    have hne : value.toNat ≠ 0 := fun h0 => hne (UInt64.toNat_inj.mp (by simpa using h0))
    exact Nat.log2_lt hne

theorem bitLength_shift {value : UInt64} (h : 128 ≤ value.toNat) :
    bitLength value = bitLength (value >>> 7) + 7 := by
  have h0 : value ≠ 0 := by
    rintro rfl
    simp at h
  have h1 : value >>> 7 ≠ 0 := by
    intro hz
    have := (shift_eq_zero_iff value).mp hz
    omega
  have hbits : 7 ≤ value.toNat.log2 := (Nat.le_log2 (by omega)).mpr h
  have hlow : (value.toNat / 128).log2 = value.toNat.log2 - 7 := by
    rw [Nat.log2_eq_log_two, Nat.log2_eq_log_two]
    exact Nat.log_div_base_pow 2 value.toNat 7
  have hshift := toNat_shiftRight_group value
  simp only [bitLength, if_neg h0, if_neg h1, hshift]
  omega

/-- The size computed from the bit length is the number of bytes written. -/
theorem length_encode (value : UInt64) : (encode value).length = size value := by
  induction value using group_induction with
  | last value h =>
    have hbits := (bitLength_le_iff value 7).mpr h
    rw [encode_of_lt h]
    simp only [List.length_singleton, size]
    omega
  | more value h ih =>
    rw [encode_of_le h, List.length_cons, ih]
    simp only [size, bitLength_shift h]
    have hbits : ¬ bitLength (value >>> 7) ≤ 0 := by
      rw [bitLength_le_iff, toNat_shiftRight_group]
      omega
    omega

theorem size_le_of_lt {value : UInt64} {count : Nat} (hcount : 0 < count)
    (h : value.toNat < 2 ^ (7 * count)) : size value ≤ count := by
  have hbits := (bitLength_le_iff value (7 * count)).mpr h
  unfold size
  omega

theorem size_le_maxSize (value : UInt64) : size value ≤ maxSize := by
  have hvalue := value.toNat_lt
  refine size_le_of_lt (by decide) ?_
  unfold maxSize
  omega

/-! ### One group at its place -/

section OneByte

variable {before : UInt64} {index : Nat} {byte : UInt8}

theorem toNat_group (byte : UInt8) : ((byte &&& 0x7f).toUInt64).toNat = byte.toNat % 128 := by
  rw [UInt8.toNat_toUInt64, toNat_low_bits]

/-- Only in the tenth place a group can be too big. -/
theorem group_fits (hindex : index < maxSize)
    (htenth : ¬ (index + 1 = maxSize ∧ (byte &&& 0x7f).toUInt64 > 1)) :
    ((byte &&& 0x7f).toUInt64).toNat * 2 ^ (7 * index) < 2 ^ 64 := by
  have hgroup := toNat_group byte
  unfold maxSize at hindex htenth
  by_cases hlast : index = 9
  · subst hlast
    have hone : ((byte &&& 0x7f).toUInt64).toNat ≤ 1 := by
      by_contra hbig
      refine htenth ⟨rfl, ?_⟩
      rw [gt_iff_lt, UInt64.lt_iff_toNat_lt]
      simp only [UInt64.toNat_one]
      omega
    omega
  · have hplace : 2 ^ (7 * index) ≤ 2 ^ 56 := Nat.pow_le_pow_right (by omega) (by omega)
    calc ((byte &&& 0x7f).toUInt64).toNat * 2 ^ (7 * index) ≤ 127 * 2 ^ 56 :=
          Nat.mul_le_mul (by omega) hplace
      _ < 2 ^ 64 := by decide

theorem toNat_next (hindex : index < maxSize)
    (htenth : ¬ (index + 1 = maxSize ∧ (byte &&& 0x7f).toUInt64 > 1))
    (hbefore : before.toNat < 2 ^ (7 * index)) :
    (before ||| ((byte &&& 0x7f).toUInt64 <<< UInt64.ofNat (7 * index))).toNat =
      before.toNat + byte.toNat % 128 * 2 ^ (7 * index) := by
  rw [toNat_add_group hindex hbefore (group_fits hindex htenth), toNat_group]

end OneByte

end StreamMux.Varint
