import Mathlib.Algebra.BigOperators.Group.Finset.Basic
import Mathlib.Data.Nat.Find
import StreamMux.Proofs.Wire.Varint

/-!
# Values as numbers in base 128

The bytes of a value are the digits of a number in base 128, low digits first, and the high bit of a
byte only says whether a further digit follows.

* `Varint.numeral` — the number that the first bytes of a byte string spell;
* `Varint.decode_front` — behind some marked bytes, the reader holds the number that they spell;
* `Varint.Spells`, `Varint.Unfinished`, `Varint.Overflows` — three shapes of byte strings, of which
  every byte string has one (`Varint.shapes`);
* `Varint.read_as_numeral` — the reader tells the three apart, and gives the number exactly.

Each answer of the reader comes with one of the shapes (`Varint.decode_eq_value_iff` and its like).
What is known of the answers is told by the shapes, without going through the bytes again:

* `Varint.decode_encode_append` — a written value is read back, whatever follows it;
* `Varint.decode_append`, `Varint.decode_overflow_append` — what is decided stays when more bytes
  follow;
* `Varint.size_le_count`, `Varint.take_eq_encode` — a value is written in as few bytes as it can be
  read from, and in one way only;
* `Varint.decode_complete` — an unfinished value can be finished.

Places count from 0, and a byte that is not there counts as 0.
-/

namespace StreamMux.Varint

variable {bytes other : Bytes} {value before : UInt64} {count index : Nat}

/-! ### Bytes at their places -/

/-- The byte at a place. -/
def byteAt (bytes : Bytes) (index : Nat) : UInt8 := bytes.getD index 0

/-- The group of seven bits that the byte at a place brings, as the reader takes it. -/
def groupAt (bytes : Bytes) (index : Nat) : UInt64 := (byteAt bytes index &&& 0x7f).toUInt64

theorem byteAt_eq_getElem (h : index < bytes.length) : byteAt bytes index = bytes[index] := by
  rw [byteAt, List.getD_eq_getElem?_getD, List.getElem?_eq_getElem h, Option.getD_some]

theorem lt_length_of_pos (h : 0 < (byteAt bytes index).toNat) : index < bytes.length := by
  by_contra hge
  rw [byteAt, List.getD_eq_getElem?_getD, List.getElem?_eq_none (Nat.le_of_not_lt hge)] at h
  exact absurd h (by decide)

theorem drop_eq_cons (h : index < bytes.length) :
    bytes.drop index = byteAt bytes index :: bytes.drop (index + 1) := by
  rw [List.drop_eq_getElem_cons h, byteAt_eq_getElem h]

theorem byteAt_of_take (h : other.take count = bytes.take count) (hindex : index < count) :
    byteAt other index = byteAt bytes index := by
  have hsame := congrArg (·[index]?) h
  simp only [List.getElem?_take_of_lt hindex] at hsame
  rw [byteAt, byteAt, List.getD_eq_getElem?_getD, List.getD_eq_getElem?_getD, hsame]

theorem byteAt_append (h : index < bytes.length) (more : Bytes) :
    byteAt (bytes ++ more) index = byteAt bytes index := by
  rw [byteAt_eq_getElem h, byteAt_eq_getElem (by rw [List.length_append]; omega),
    List.getElem_append_left h]

/-! ### Numerals -/

/-- The number that the first `count` bytes spell. -/
def numeral (bytes : Bytes) (count : Nat) : Nat :=
  ∑ i ∈ Finset.range count, (byteAt bytes i).toNat % 128 * 128 ^ i

theorem place_eq (index : Nat) : 2 ^ (7 * index) = 128 ^ index := Nat.pow_mul 2 7 index

theorem numeral_succ (bytes : Bytes) (count : Nat) :
    numeral bytes (count + 1) =
      numeral bytes count + (byteAt bytes count).toNat % 128 * 2 ^ (7 * count) := by
  rw [numeral, Finset.sum_range_succ, ← numeral, place_eq]

theorem numeral_lt (bytes : Bytes) (count : Nat) : numeral bytes count < 2 ^ (7 * count) := by
  induction count with
  | zero => simp [numeral]
  | succ count ih =>
    rw [numeral_succ]
    exact add_group_lt ih (Nat.mod_lt _ (by decide))

theorem numeral_cons (byte : UInt8) (bytes : Bytes) (count : Nat) :
    numeral (byte :: bytes) (count + 1) = byte.toNat % 128 + 128 * numeral bytes count := by
  induction count with
  | zero => simp [numeral, byteAt]
  | succ count ih =>
    have hbyte : byteAt (byte :: bytes) (count + 1) = byteAt bytes count := rfl
    rw [numeral_succ, ih, numeral_succ bytes count, hbyte, place_succ, Nat.mul_add,
      Nat.mul_left_comm, Nat.add_assoc]

theorem numeral_of_take (h : other.take count = bytes.take count) :
    numeral other count = numeral bytes count := by
  refine Finset.sum_congr rfl ?_
  intro i hi
  rw [byteAt_of_take h (Finset.mem_range.mp hi)]

theorem group_eq_of_numeral_eq (h : numeral bytes count = numeral other count) :
    ∀ i < count, (byteAt bytes i).toNat % 128 = (byteAt other i).toNat % 128 := by
  induction count with
  | zero => exact fun i hi => absurd hi (Nat.not_lt_zero i)
  | succ count ih =>
    have hplace : 0 < 2 ^ (7 * count) := Nat.two_pow_pos _
    rw [numeral_succ, numeral_succ] at h
    -- the groups below the last are what is left over when the place of the last divides
    have hlow : numeral bytes count = numeral other count := by
      have hmod := congrArg (· % 2 ^ (7 * count)) h
      simpa only [Nat.add_mul_mod_self_right, Nat.mod_eq_of_lt (numeral_lt _ count)] using hmod
    rw [hlow, Nat.add_left_cancel_iff] at h
    intro i hi
    rcases Nat.lt_succ_iff_lt_or_eq.mp hi with hlt | rfl
    · exact ih hlow i hlt
    · exact Nat.eq_of_mul_eq_mul_right hplace h

/-! ### The loop -/

theorem decodeFrom_drop (hthere : index < bytes.length) (hindex : index < maxSize)
    (htenth : ¬ (index + 1 = maxSize ∧ groupAt bytes index > 1)) :
    decodeFrom index before (bytes.drop index) =
      if byteAt bytes index &&& 0x80 = 0 then
        .value (before ||| (groupAt bytes index <<< UInt64.ofNat (7 * index))) (index + 1)
      else decodeFrom (index + 1)
        (before ||| (groupAt bytes index <<< UInt64.ofNat (7 * index)))
        (bytes.drop (index + 1)) := by
  rw [drop_eq_cons hthere]
  exact (if_neg (Nat.not_le.mpr hindex)).trans (if_neg htenth)

theorem decodeFrom_drop_of_big (hthere : index < bytes.length)
    (hbig : index + 1 = maxSize ∧ groupAt bytes index > 1) :
    decodeFrom index before (bytes.drop index) = .overflow := by
  have hindex : ¬ index ≥ maxSize := by omega
  rw [drop_eq_cons hthere]
  exact (if_neg hindex).trans (if_pos hbig)

theorem groupAt_le_one (h : ¬ (index + 1 = maxSize ∧ groupAt bytes index > 1)) (hlast : index = 9) :
    (byteAt bytes index).toNat % 128 ≤ 1 := by
  subst hlast
  by_contra hbig
  refine h ⟨rfl, ?_⟩
  rw [gt_iff_lt, UInt64.lt_iff_toNat_lt, groupAt, toNat_group]
  simp only [UInt64.toNat_one]
  omega

/-- The reader has come to a place, and nothing was lost on the way: it holds the number spelled so
far, and the group that is next is put in front of it whole. -/
structure Lossless (bytes : Bytes) (index : Nat) (before : UInt64) : Prop where
  reached : decode bytes = decodeFrom index before (bytes.drop index)
  held : before.toNat = numeral bytes index
  /-- The place is inside a word. -/
  room : 7 * index < 64
  /-- No bit of the group is shifted out. -/
  shifted : (groupAt bytes index <<< UInt64.ofNat (7 * index)).toNat =
    (byteAt bytes index).toNat % 128 * 128 ^ index
  /-- No bit of the group falls on one that is held. -/
  joined : (before ||| (groupAt bytes index <<< UInt64.ofNat (7 * index))).toNat =
    numeral bytes (index + 1)

theorem lossless (hreached : decode bytes = decodeFrom index before (bytes.drop index))
    (hheld : before.toNat = numeral bytes index) (hindex : index < maxSize)
    (htenth : ¬ (index + 1 = maxSize ∧ groupAt bytes index > 1)) :
    Lossless bytes index before where
  reached := hreached
  held := hheld
  room := by
    unfold maxSize at hindex
    omega
  shifted := by
    rw [groupAt, toNat_shift_group hindex (group_fits hindex htenth), toNat_group, place_eq]
  joined := by
    have hbefore := numeral_lt bytes index
    rw [← hheld] at hbefore
    rw [groupAt, toNat_next hindex htenth hbefore, numeral_succ, hheld]

/-- **Behind marked bytes, the reader holds the number that they spell.**  There are nine of them at
most; what the tenth place takes is decided when the reader is there. -/
theorem decode_front (hcount : count ≤ 9) (hmarked : ∀ i < count, 128 ≤ (byteAt bytes i).toNat) :
    ∃ before : UInt64, before.toNat = numeral bytes count ∧
      decode bytes = decodeFrom count before (bytes.drop count) := by
  induction count with
  | zero => exact ⟨0, by simp [numeral], rfl⟩
  | succ count ih =>
    obtain ⟨before, hheld, hreached⟩ := ih (by omega) fun i hi => hmarked i (by omega)
    have hmark := hmarked count (Nat.lt_succ_self count)
    have hindex : count + 1 < maxSize := by
      unfold maxSize
      omega
    have htenth : ¬ (count + 1 = maxSize ∧ groupAt bytes count > 1) := fun h => by omega
    have hstep := lossless hreached hheld (by omega) htenth
    have hnext : ¬ byteAt bytes count &&& 0x80 = 0 := by
      rw [high_bit_eq_zero_iff]
      omega
    refine ⟨_, hstep.joined, ?_⟩
    rw [hreached, decodeFrom_drop (lt_length_of_pos (by omega)) (by omega) htenth, if_neg hnext]

/-! ### Three shapes -/

/-- The first `count` bytes are a value: the last of them is the only one without a mark. -/
structure Spells (bytes : Bytes) (value : UInt64) (count : Nat) : Prop where
  pos : 0 < count
  size : count ≤ maxSize
  there : count ≤ bytes.length
  marked : ∀ i < count - 1, 128 ≤ (byteAt bytes i).toNat
  last : (byteAt bytes (count - 1)).toNat < 128
  number : numeral bytes count = value.toNat

/-- All bytes are marked, and there is a place for one more. -/
def Unfinished (bytes : Bytes) : Prop :=
  bytes.length < maxSize ∧ ∀ i < bytes.length, 128 ≤ (byteAt bytes i).toNat

/-- Nine marked bytes, and a tenth that is more than the last bit of a word. -/
def Overflows (bytes : Bytes) : Prop :=
  (∀ i < 9, 128 ≤ (byteAt bytes i).toNat) ∧ 1 < (byteAt bytes 9).toNat

/-- Every byte string has one of the three shapes.  Its first byte without a mark decides. -/
theorem shapes (bytes : Bytes) :
    (∃ value count, Spells bytes value count) ∨ Unfinished bytes ∨ Overflows bytes := by
  have hend : ∃ i, (byteAt bytes i).toNat < 128 :=
    ⟨bytes.length, by simp [byteAt]⟩
  obtain ⟨place, hlast, hmarked⟩ :
      ∃ place, (byteAt bytes place).toNat < 128 ∧
        ∀ i < place, 128 ≤ (byteAt bytes i).toNat :=
    ⟨Nat.find hend, Nat.find_spec hend, fun i hi => Nat.le_of_not_lt (Nat.find_min hend hi)⟩
  have hsize : maxSize = 10 := rfl
  by_cases hlong : 9 < place
  · -- the tenth byte is marked as well
    have htenth := hmarked 9 hlong
    exact Or.inr (Or.inr ⟨fun i hi => hmarked i (by omega), by omega⟩)
  by_cases hshort : bytes.length ≤ place
  · exact Or.inr (Or.inl ⟨by omega, fun i hi => hmarked i (by omega)⟩)
  by_cases hbig : place = 9 ∧ 1 < (byteAt bytes place).toNat
  · obtain ⟨rfl, hbig⟩ := hbig
    exact Or.inr (Or.inr ⟨hmarked, hbig⟩)
  have hfits : numeral bytes (place + 1) < 2 ^ 64 := by
    have hfront := numeral_lt bytes place
    rcases Nat.lt_or_ge place 9 with hlt | hge
    · exact (numeral_lt bytes (place + 1)).trans_le (Nat.pow_le_pow_right (by omega) (by omega))
    · obtain rfl : place = 9 := by omega
      rw [numeral_succ]
      omega
  refine Or.inl ⟨UInt64.ofNat (numeral bytes (place + 1)), place + 1, ?_⟩
  refine ⟨by omega, by omega, by omega, hmarked, hlast, ?_⟩
  rw [UInt64.toNat_ofNat', Nat.mod_eq_of_lt hfits]

/-! ### What is read -/

theorem tenth_of_number (h : numeral bytes (index + 1) = value.toNat) :
    ¬ (index + 1 = maxSize ∧ groupAt bytes index > 1) := by
  rintro ⟨hlast, hbig⟩
  obtain rfl : index = 9 := by
    unfold maxSize at hlast
    omega
  have hvalue := value.toNat_lt
  rw [gt_iff_lt, UInt64.lt_iff_toNat_lt, groupAt, toNat_group] at hbig
  simp only [UInt64.toNat_one] at hbig
  rw [numeral_succ] at h
  omega

theorem Spells.lossless (h : Spells bytes value count) {index : Nat} (hindex : index < count) :
    ∃ before, Lossless bytes index before := by
  have hsize := h.size
  have hten : maxSize = 10 := rfl
  obtain ⟨before, hheld, hreached⟩ :=
    @decode_front bytes index (by omega) fun i hi => h.marked i (by omega)
  refine ⟨before, Varint.lossless hreached hheld (by omega) ?_⟩
  rintro ⟨hlast, hbig⟩
  obtain rfl : count = index + 1 := by omega
  exact tenth_of_number h.number ⟨hlast, hbig⟩

theorem Spells.decode (h : Spells bytes value count) : decode bytes = .value value count := by
  obtain ⟨place, rfl⟩ : ∃ place, count = place + 1 := Nat.exists_eq_add_one.mpr h.pos
  obtain ⟨before, hstep⟩ := h.lossless (Nat.lt_succ_self place)
  have hlast : byteAt bytes place &&& 0x80 = 0 := (high_bit_eq_zero_iff _).mpr h.last
  rw [hstep.reached, decodeFrom_drop h.there h.size (tenth_of_number h.number), if_pos hlast,
    UInt64.toNat_inj.mp (hstep.joined.trans h.number)]

theorem Unfinished.decode (h : Unfinished bytes) : decode bytes = .incomplete := by
  obtain ⟨before, -, hreached⟩ := decode_front (Nat.le_of_lt_succ h.1) h.2
  rw [hreached, List.drop_length]
  exact if_pos h.1

/-- The tenth group is too big, or an eleventh would have to follow. -/
theorem Overflows.decode (h : Overflows bytes) : decode bytes = .overflow := by
  obtain ⟨hmarked, htenth⟩ := h
  obtain ⟨before, -, hreached⟩ := decode_front (Nat.le_refl 9) hmarked
  have hthere : 9 < bytes.length := lt_length_of_pos (by omega)
  by_cases hbig : 9 + 1 = maxSize ∧ groupAt bytes 9 > 1
  · rw [hreached, decodeFrom_drop_of_big hthere hbig]
  · have hsmall := groupAt_le_one hbig rfl
    have hnext : ¬ byteAt bytes 9 &&& 0x80 = 0 := by
      rw [high_bit_eq_zero_iff]
      omega
    rw [hreached, decodeFrom_drop hthere (by decide) hbig, if_neg hnext]
    rcases bytes.drop (9 + 1) with _ | ⟨next, rest⟩ <;> rfl

theorem decode_eq_value_iff : decode bytes = .value value count ↔ Spells bytes value count := by
  refine ⟨?_, Spells.decode⟩
  intro hread
  rcases shapes bytes with ⟨value', count', h⟩ | h | h
  · have hsame := hread.symm.trans h.decode
    cases hsame
    exact h
  · cases hread.symm.trans h.decode
  · cases hread.symm.trans h.decode

theorem decode_eq_incomplete_iff : decode bytes = .incomplete ↔ Unfinished bytes := by
  refine ⟨?_, Unfinished.decode⟩
  intro hread
  rcases shapes bytes with ⟨value, count, h⟩ | h | h
  · cases hread.symm.trans h.decode
  · exact h
  · cases hread.symm.trans h.decode

theorem decode_eq_overflow_iff : decode bytes = .overflow ↔ Overflows bytes := by
  refine ⟨?_, Overflows.decode⟩
  intro hread
  rcases shapes bytes with ⟨value, count, h⟩ | h | h
  · cases hread.symm.trans h.decode
  · cases hread.symm.trans h.decode
  · exact h

/-! ### Values in front of other bytes -/

theorem Spells.of_take (h : Spells bytes value count)
    (htake : other.take count = bytes.take count) : Spells other value count where
  pos := h.pos
  size := h.size
  there := by
    have hlength := congrArg List.length htake
    have hthere := h.there
    rw [List.length_take, List.length_take] at hlength
    omega
  marked i hi := by
    rw [byteAt_of_take htake (by omega)]
    exact h.marked i hi
  last := by
    rw [byteAt_of_take htake (Nat.sub_lt h.pos Nat.one_pos)]
    exact h.last
  number := (numeral_of_take htake).trans h.number

/-- A value takes at least one byte, and only bytes that are there. -/
theorem size_of_decode (h : decode bytes = .value value count) :
    0 < count ∧ count ≤ bytes.length :=
  ⟨(decode_eq_value_iff.mp h).pos, (decode_eq_value_iff.mp h).there⟩

theorem size_le_of_decode (h : decode bytes = .value value count) : count ≤ maxSize :=
  (decode_eq_value_iff.mp h).size

theorem length_lt_of_incomplete (h : decode bytes = .incomplete) : bytes.length < maxSize :=
  (decode_eq_incomplete_iff.mp h).1

/-- A value is read from the bytes it takes, whatever is behind them. -/
theorem decode_of_take (h : decode bytes = .value value count)
    (htake : other.take count = bytes.take count) : decode other = .value value count :=
  ((decode_eq_value_iff.mp h).of_take htake).decode

/-- A value once read is read the same when more bytes follow. -/
theorem decode_append (h : decode bytes = .value value count) (more : Bytes) :
    decode (bytes ++ more) = .value value count :=
  decode_of_take h (List.take_append_of_le_length (size_of_decode h).2)

/-- A value is read from as many bytes as it takes, or more of them. -/
theorem decode_take {kept : Nat} (h : decode bytes = .value value count) (hkept : count ≤ kept) :
    decode (bytes.take kept) = .value value count :=
  decode_of_take h (by rw [List.take_take, Nat.min_eq_left hkept])

/-- A value that does not fit does not fit when more bytes follow. -/
theorem decode_overflow_append (h : decode bytes = .overflow) (more : Bytes) :
    decode (bytes ++ more) = .overflow := by
  obtain ⟨hmarked, htenth⟩ := decode_eq_overflow_iff.mp h
  have hthere : 9 < bytes.length := lt_length_of_pos (by omega)
  refine Overflows.decode ⟨fun i hi => ?_, ?_⟩
  · rw [byteAt_append (by omega)]
    exact hmarked i hi
  · rwa [byteAt_append hthere]

/-- An unfinished value is finished by a group of zeros: it has nine groups at most so far. -/
theorem decode_complete (h : decode bytes = .incomplete) :
    ∃ value : UInt64, value.toNat < 2 ^ 63 ∧
      ∀ rest, decode (bytes ++ 0 :: rest) = .value value (bytes.length + 1) := by
  obtain ⟨hshort, hmarked⟩ := decode_eq_incomplete_iff.mp h
  have hbound : numeral bytes bytes.length < 2 ^ 63 := by
    unfold maxSize at hshort
    exact (numeral_lt bytes _).trans_le (Nat.pow_le_pow_right (by omega) (by omega))
  have hvalue : (UInt64.ofNat (numeral bytes bytes.length)).toNat = numeral bytes bytes.length := by
    rw [UInt64.toNat_ofNat', Nat.mod_eq_of_lt (by omega)]
  refine ⟨UInt64.ofNat (numeral bytes bytes.length), by rwa [hvalue], fun rest => ?_⟩
  have hzero : byteAt (bytes ++ 0 :: rest) bytes.length = 0 := by simp [byteAt]
  refine Spells.decode ⟨Nat.succ_pos _, hshort, by simp, fun i hi => ?_, ?_, ?_⟩
  · rw [byteAt_append hi]
    exact hmarked i hi
  · rw [Nat.add_sub_cancel, hzero]
    decide
  · have htake : (bytes ++ 0 :: rest).take bytes.length = bytes.take bytes.length := by
      rw [List.take_left, List.take_length]
    rw [numeral_succ, hzero, hvalue, numeral_of_take htake]
    simp

/-! ### Written values -/

theorem Spells.cons {byte : UInt8} {longer : UInt64} (h : Spells bytes value count)
    (hmark : 128 ≤ byte.toNat) (hsize : count < maxSize)
    (hnumber : longer.toNat = byte.toNat % 128 + 128 * value.toNat) :
    Spells (byte :: bytes) longer (count + 1) where
  pos := Nat.succ_pos count
  size := hsize
  there := Nat.succ_le_succ h.there
  marked i hi := by
    cases i with
    | zero => exact hmark
    | succ i => exact h.marked i (by omega)
  last := by
    obtain ⟨place, rfl⟩ : ∃ place, count = place + 1 := Nat.exists_eq_add_one.mpr h.pos
    exact h.last
  number := by rw [numeral_cons, h.number, hnumber]

theorem spells_encode_append (value : UInt64) (rest : Bytes) :
    Spells (encode value ++ rest) value (size value) := by
  have hgroup := toNat_low_group
  induction value using group_induction with
  | last value h =>
    have hbyte := hgroup value
    rw [← length_encode, encode_of_lt h]
    have hnone : ∀ i < [(value &&& 0x7f).toUInt8].length - 1, 128 ≤
        (byteAt ([(value &&& 0x7f).toUInt8] ++ rest) i).toNat :=
      fun i hi => absurd hi (Nat.not_lt_zero i)
    refine ⟨Nat.one_pos, show 1 ≤ maxSize by decide, by simp, hnone, ?_, ?_⟩
    · show ((value &&& 0x7f).toUInt8).toNat < 128
      omega
    · rw [List.length_singleton, List.singleton_append, numeral_cons, hbyte]
      simp only [numeral, Finset.range_zero, Finset.sum_empty]
      omega
  | more value h ih =>
    have hbyte := hgroup value
    have hmark := toNat_mark (value &&& 0x7f).toUInt8 (by omega)
    have hshift := toNat_shiftRight_group value
    have hsize : size value = size (value >>> 7) + 1 := by
      rw [← length_encode, encode_of_le h, List.length_cons, length_encode]
    have hmax := size_le_maxSize value
    rw [hsize, encode_of_le h, List.cons_append]
    exact ih.cons (by omega) (by omega) (by omega)

theorem decode_encode_append (value : UInt64) (rest : Bytes) :
    decode (encode value ++ rest) = .value value (size value) :=
  (spells_encode_append value rest).decode

/-! ### The shortest form -/

/-- A value is spelled by so many bytes in one way only. -/
theorem Spells.take_eq (h : Spells bytes value count) (h' : Spells other value count) :
    bytes.take count = other.take count := by
  have hgroup := group_eq_of_numeral_eq (h.number.trans h'.number.symm)
  have hthere := h.there
  have hthere' := h'.there
  refine List.ext_getElem (by rw [List.length_take, List.length_take]; omega) ?_
  intro i hi hi'
  rw [List.length_take] at hi hi'
  rw [List.getElem_take, List.getElem_take, ← byteAt_eq_getElem, ← byteAt_eq_getElem,
    ← UInt8.toNat_inj]
  -- the groups are the same, and so are the marks
  have hsame := hgroup i (by omega)
  have hbyte := (byteAt bytes i).toNat_lt
  have hbyte' := (byteAt other i).toNat_lt
  by_cases hlast : i < count - 1
  · have hmark := h.marked i hlast
    have hmark' := h'.marked i hlast
    omega
  · obtain rfl : i = count - 1 := by omega
    have hclear := h.last
    have hclear' := h'.last
    omega

/-- A value is read from at least as many bytes as it is written in. -/
theorem size_le_count (h : decode bytes = .value value count) : size value ≤ count := by
  have hspells := decode_eq_value_iff.mp h
  exact size_le_of_lt hspells.pos (hspells.number ▸ numeral_lt bytes count)

/-- A value that is read from as many bytes as it is written in is read from those bytes. -/
theorem take_eq_encode (h : decode bytes = .value value count) (hcount : count = size value) :
    bytes.take count = encode value := by
  subst hcount
  have hsame := (decode_eq_value_iff.mp h).take_eq (spells_encode_append value [])
  rw [List.append_nil, ← length_encode, List.take_length] at hsame
  rw [← length_encode, hsame]

/-! ### Reading a number -/

/-- What the answer to a byte string says of the digits in it. -/
structure ReadAsNumeral (bytes : Bytes) : Prop where
  value_iff : ∀ value count, decode bytes = .value value count ↔ Spells bytes value count
  incomplete_iff : decode bytes = .incomplete ↔ Unfinished bytes
  /-- All that is neither a value nor the beginning of one overflows. -/
  overflow_iff : decode bytes = .overflow ↔
    (¬ ∃ value count, Spells bytes value count) ∧ ¬ Unfinished bytes
  /-- It is the tenth byte that overflows. -/
  tenth : decode bytes = .overflow ↔ Overflows bytes
  /-- Bytes behind a value have no say in it. -/
  alone : ∀ value count other, decode bytes = .value value count →
    other.take count = bytes.take count → decode other = .value value count
  /-- At every place of a value, what is spelled up to there is held exactly. -/
  lossless : ∀ value count, decode bytes = .value value count →
    ∀ index < count, ∃ before, Lossless bytes index before

/-- **A value is read as the number that its bytes spell in base 128**, and no other value is. -/
theorem read_as_numeral (bytes : Bytes) : ReadAsNumeral bytes where
  value_iff _ _ := decode_eq_value_iff
  incomplete_iff := decode_eq_incomplete_iff
  overflow_iff := by
    rw [← decode_eq_incomplete_iff]
    simp only [← decode_eq_value_iff]
    rcases hread : decode bytes with ⟨value, count⟩ | _ | _ <;> simp
  tenth := decode_eq_overflow_iff
  alone _ _ _ := decode_of_take
  lossless _ _ hread _ hindex := (decode_eq_value_iff.mp hread).lossless hindex

/-- The largest word, and the next number. -/
example : decode [0xff, 0xff, 0xff, 0xff, 0xff, 0xff, 0xff, 0xff, 0xff, 0x01] =
      .value 0xffffffffffffffff 10 ∧
    decode [0x80, 0x80, 0x80, 0x80, 0x80, 0x80, 0x80, 0x80, 0x80, 0x02] = .overflow := by
  decide +kernel

end StreamMux.Varint
