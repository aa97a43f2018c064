/-!
# Variable-length integers

A 64-bit value is cut into groups of seven bits, low groups first.  Each group is one byte, and
every byte but the last has its high bit set.

* `Varint.encode` writes a value in as few bytes as it takes;
* `Varint.size` is the number of these bytes, computed from the bit length;
* `Varint.decode` reads a value from the front of a byte string, and tells an unfinished value from
  one that does not fit 64 bits.
-/

namespace StreamMux

abbrev Bytes := List UInt8

namespace Varint

/-- A 64-bit value has at most ten groups of seven bits. -/
def maxSize : Nat := 10

/-! ### Writing -/

theorem toNat_shiftRight_group (value : UInt64) : (value >>> 7).toNat = value.toNat / 128 := by
  rw [UInt64.toNat_shiftRight]
  simp [Nat.shiftRight_eq_div_pow]

/-- Shifting a group out makes a value smaller, unless nothing is left of it. -/
theorem toNat_shiftRight_lt {value : UInt64} (h : value >>> 7 ≠ 0) :
    (value >>> 7).toNat < value.toNat := by
  have hdiv := toNat_shiftRight_group value
  have hne : (value >>> 7).toNat ≠ 0 := fun h0 => h (UInt64.toNat_inj.mp (by simpa using h0))
  omega

/-- The groups of `value`, low group first; the high bit marks every byte but the last. -/
def encode (value : UInt64) : Bytes :=
  let group : UInt8 := (value &&& 0x7f).toUInt8
  if _ : value >>> 7 = 0 then [group] else (group ||| 0x80) :: encode (value >>> 7)
termination_by value.toNat
decreasing_by exact toNat_shiftRight_lt ‹_›

theorem encode_ne_nil (value : UInt64) : encode value ≠ [] := by
  rw [encode]
  split <;> simp

/-- The number of significant bits. -/
def bitLength (value : UInt64) : Nat :=
  if value = 0 then 0 else value.toNat.log2 + 1

/-- The number of bytes of `encode value`: one for each seven bits begun, and one for zero. -/
def size (value : UInt64) : Nat :=
  (max (bitLength value) 1 + 6) / 7

/-! ### Reading -/

inductive Scan where
  /-- A value and the number of bytes it took. -/
  | value (value : UInt64) (size : Nat)
  /-- The byte string ends inside the value. -/
  | incomplete
  /-- The value does not fit 64 bits. -/
  | overflow
  deriving DecidableEq, Repr

/-- Reading goes on at group `index`, with `value` put together from the groups before it.
Only the lowest bit of the tenth group has room in 64 bits. -/
def decodeFrom (index : Nat) (value : UInt64) : Bytes → Scan
  | [] => if index < maxSize then .incomplete else .overflow
  | byte :: rest =>
    let group : UInt64 := (byte &&& 0x7f).toUInt64
    if index ≥ maxSize then .overflow
    else if index + 1 = maxSize ∧ group > 1 then .overflow
    else
      let value := value ||| (group <<< UInt64.ofNat (7 * index))
      if byte &&& 0x80 = 0 then .value value (index + 1) else decodeFrom (index + 1) value rest

def decode (bytes : Bytes) : Scan :=
  decodeFrom 0 0 bytes

end Varint

end StreamMux
