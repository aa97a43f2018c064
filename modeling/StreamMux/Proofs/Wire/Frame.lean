import StreamMux.Proofs.Wire.Numeral
import StreamMux.Frame.Assembler

/-!
# Cutting frames off a byte string

* `Frame.wire` — the bytes of a frame, and `Frame.encode_cases`: they are what is written whenever
  number and flag have room in the header, and else one of the two is at fault;
* `Frame.cut_of_scan`, `Frame.scan_of_cut` — a frame is cut off by its header and its length;
* `Frame.cut_wire_append` — the bytes of a frame, with anything behind them, give the frame and
  what is behind, unless its payload is above the limit;
* `Frame.cut_append` — a frame once cut off is the same one when more bytes follow.
-/

namespace StreamMux

/-! ### Headers -/

namespace Header

theorem toNat_word {id : UInt64} (flag : UInt8) (hid : id ≤ maxId) :
    (word id flag).toNat = id.toNat * 8 + flag.toNat % 8 := by
  rw [UInt64.le_iff_toNat_le] at hid
  simp only [maxId, UInt64.reduceToNat] at hid
  have hflag : (flag &&& 7).toUInt64.toNat = flag.toNat % 8 := by
    rw [UInt8.toNat_toUInt64, UInt8.toNat_and, show (7 : UInt8).toNat = 2 ^ 3 - 1 from rfl,
      Nat.and_two_pow_sub_one_eq_mod]
  have hshift : (id <<< 3).toNat = 2 ^ 3 * id.toNat := by
    rw [UInt64.toNat_shiftLeft, Nat.shiftLeft_eq]
    simp only [UInt64.reduceToNat, Nat.reduceMod, Nat.reducePow]
    omega
  rw [word, UInt64.toNat_or, hshift, hflag, ← Nat.two_pow_add_eq_or_of_lt (by omega)]
  omega

/-- Number and flag come out of the header that they were put into. -/
theorem split_word {id : UInt64} {flag : UInt8} (hid : id ≤ maxId) (hflag : flag ≤ maxFlag) :
    split (word id flag) = (id, flag) := by
  have hword := toNat_word flag hid
  rw [UInt8.le_iff_toNat_le] at hflag
  simp only [maxFlag, UInt8.reduceToNat] at hflag
  refine Prod.ext (UInt64.toNat_inj.mp ?_) (UInt8.toNat_inj.mp ?_)
  · simp only [split, UInt64.toNat_shiftRight, UInt64.reduceToNat, hword,
      Nat.shiftRight_eq_div_pow, Nat.reduceMod, Nat.reducePow]
    omega
  · simp only [split, UInt64.toNat_toUInt8, UInt64.toNat_and, hword, UInt64.reduceToNat]
    rw [show (7 : Nat) = 2 ^ 3 - 1 from rfl, Nat.and_two_pow_sub_one_eq_mod]
    omega

/-- Whatever a header holds, its number and its flag would fit a header again. -/
theorem split_le (header : UInt64) : (split header).1 ≤ maxId ∧ (split header).2 ≤ maxFlag := by
  have hlt := header.toNat_lt
  rw [UInt64.le_iff_toNat_le, UInt8.le_iff_toNat_le]
  constructor
  · simp only [split, maxId, UInt64.toNat_shiftRight, UInt64.reduceToNat,
      Nat.shiftRight_eq_div_pow, Nat.reduceMod, Nat.reducePow]
    omega
  · simp only [split, maxFlag, UInt64.toNat_toUInt8, UInt64.toNat_and, UInt64.reduceToNat,
      UInt8.reduceToNat]
    rw [show (7 : Nat) = 2 ^ 3 - 1 from rfl, Nat.and_two_pow_sub_one_eq_mod]
    omega

/-- A number without room in the header is reported before a flag without room. -/
theorem combine_cases (id : UInt64) (flag : UInt8) :
    (maxId < id ∧ combine id flag = .error (.idOutOfRange id)) ∨
    (id ≤ maxId ∧ maxFlag < flag ∧ combine id flag = .error (.invalidFlag flag)) ∨
    (id ≤ maxId ∧ flag ≤ maxFlag ∧ combine id flag = .ok (word id flag)) := by
  unfold combine
  by_cases hid : maxId < id
  · exact Or.inl ⟨hid, by rw [if_pos hid]⟩
  · rw [if_neg hid]
    right
    by_cases hflag : maxFlag < flag
    · exact Or.inl ⟨UInt64.not_lt.mp hid, hflag, by rw [if_pos hflag]⟩
    · exact Or.inr ⟨UInt64.not_lt.mp hid, UInt8.not_lt.mp hflag, by rw [if_neg hflag]⟩

end Header

/-! ### What stands in front of a payload -/

namespace Preamble

variable {bytes : Bytes} {limit headerSize lengthSize : Nat} {header length : UInt64}

/-- Two values, one behind the other, are a header and a length, unless the length is above the
limit. -/
theorem scan_of_values (hheader : Varint.decode bytes = .value header headerSize)
    (hlength : Varint.decode (bytes.drop headerSize) = .value length lengthSize) (limit : Nat) :
    scan bytes limit =
      if length.toNat > limit then .error (.tooLarge length limit)
      else .ok (some ⟨(Header.split header).1, (Header.split header).2, length.toNat,
        headerSize + lengthSize⟩) := by
  simp only [scan, hheader, hlength]

theorem values_of_scan {preamble : Preamble} (h : scan bytes limit = .ok (some preamble)) :
    ∃ header headerSize length lengthSize, Varint.decode bytes = .value header headerSize ∧
      Varint.decode (bytes.drop headerSize) = .value length lengthSize ∧ length.toNat ≤ limit ∧
      preamble = ⟨(Header.split header).1, (Header.split header).2, length.toNat,
        headerSize + lengthSize⟩ := by
  unfold scan at h
  split at h
  · cases h
  · cases h
  · rename_i header headerSize hheader
    split at h
    · cases h
    · cases h
    · rename_i length lengthSize hlength
      split at h
      · cases h
      · rename_i hlimit
        cases h
        exact ⟨header, headerSize, length, lengthSize, hheader, hlength,
          Nat.le_of_not_lt hlimit, rfl⟩

theorem values_of_scan_none (h : scan bytes limit = .ok none) :
    Varint.decode bytes = .incomplete ∨
    ∃ header headerSize, Varint.decode bytes = .value header headerSize ∧
      Varint.decode (bytes.drop headerSize) = .incomplete := by
  unfold scan at h
  split at h
  · cases h
  · exact Or.inl ‹_›
  · rename_i header headerSize hheader
    split at h
    · cases h
    · exact Or.inr ⟨header, headerSize, hheader, ‹_›⟩
    · split at h <;> cases h

/-- One of the two values does not fit, or the length is above the limit. -/
theorem values_of_scan_error {fault : FrameFault} (h : scan bytes limit = .error fault) :
    (Varint.decode bytes = .overflow ∧ fault = .varintOverflow) ∨
    ∃ header headerSize, Varint.decode bytes = .value header headerSize ∧
      ((Varint.decode (bytes.drop headerSize) = .overflow ∧ fault = .varintOverflow) ∨
        ∃ length lengthSize, Varint.decode (bytes.drop headerSize) = .value length lengthSize ∧
          limit < length.toNat ∧ fault = .tooLarge length limit) := by
  unfold scan at h
  split at h
  · exact Or.inl ⟨‹_›, (Except.error.inj h).symm⟩
  · cases h
  · rename_i header headerSize hheader
    refine Or.inr ⟨header, headerSize, hheader, ?_⟩
    split at h
    · exact Or.inl ⟨‹_›, (Except.error.inj h).symm⟩
    · cases h
    · rename_i length lengthSize hlength
      split at h
      · exact Or.inr ⟨length, lengthSize, hlength, ‹_›, (Except.error.inj h).symm⟩
      · cases h

end Preamble

namespace Frame

/-! ### The bytes of a frame -/

def wire (frame : Frame) : Bytes :=
  Varint.encode (Header.word frame.id frame.flag) ++ Varint.encode (lengthWord frame.payload) ++
    frame.payload

/-- A frame that can be told from its bytes: number and flag have room in the header, and the
length of the payload fits a word. -/
structure Fits (frame : Frame) : Prop where
  id_le : frame.id ≤ Header.maxId
  flag_le : frame.flag ≤ Header.maxFlag
  length_lt : frame.payload.length < 2 ^ 64

theorem wire_ne_nil (frame : Frame) : frame.wire ≠ [] := by
  simp [wire, Varint.encode_ne_nil]

theorem length_wire (frame : Frame) : frame.wire.length = frame.wireSize := by
  simp [wire, wireSize, Varint.length_encode, Nat.add_assoc]

/-- **What becomes of a frame that is to be written.**  The size computed beforehand is always
right, so that only number and flag can be wrong. -/
theorem encode_cases (frame : Frame) :
    (Header.maxId < frame.id ∧ frame.encode = .error (.idOutOfRange frame.id)) ∨
    (frame.id ≤ Header.maxId ∧ Header.maxFlag < frame.flag ∧
      frame.encode = .error (.invalidFlag frame.flag)) ∨
    (frame.id ≤ Header.maxId ∧ frame.flag ≤ Header.maxFlag ∧ frame.encode = .ok frame.wire) := by
  rcases Header.combine_cases frame.id frame.flag with
    ⟨hid, hcombine⟩ | ⟨hid, hflag, hcombine⟩ | ⟨hid, hflag, hcombine⟩
  · exact Or.inl ⟨hid, by rw [encode, hcombine]⟩
  · exact Or.inr (Or.inl ⟨hid, hflag, by rw [encode, hcombine]⟩)
  · refine Or.inr (Or.inr ⟨hid, hflag, ?_⟩)
    simp [encode, hcombine, wire, Varint.length_encode, Nat.add_assoc]

/-- A frame that was written had room in the header, and its bytes are known. -/
theorem of_encode {frame : Frame} {bytes : Bytes} (h : frame.encode = .ok bytes) :
    frame.id ≤ Header.maxId ∧ frame.flag ≤ Header.maxFlag ∧ bytes = frame.wire := by
  rcases frame.encode_cases with ⟨-, hencode⟩ | ⟨-, -, hencode⟩ | ⟨hid, hflag, hencode⟩
  · rw [hencode] at h
    cases h
  · rw [hencode] at h
    cases h
  · rw [hencode] at h
    exact ⟨hid, hflag, (Except.ok.inj h).symm⟩

/-- A number and a flag with room in the header are all that it takes to write a frame. -/
theorem encode_eq {frame : Frame} (hid : frame.id ≤ Header.maxId)
    (hflag : frame.flag ≤ Header.maxFlag) : frame.encode = .ok frame.wire := by
  rcases frame.encode_cases with ⟨hlt, -⟩ | ⟨-, hlt, -⟩ | ⟨-, -, hencode⟩
  · exact absurd hid (UInt64.not_le.mpr hlt)
  · exact absurd hflag (UInt8.not_le.mpr hlt)
  · exact hencode

theorem eq_wire_of_encode {frame : Frame} {bytes : Bytes} (h : frame.encode = .ok bytes) :
    bytes = frame.wire :=
  (of_encode h).2.2

theorem fits_of_encode {frame : Frame} {bytes : Bytes} (h : frame.encode = .ok bytes)
    (hlength : frame.payload.length < 2 ^ 64) : frame.Fits :=
  ⟨(of_encode h).1, (of_encode h).2.1, hlength⟩

theorem flag_le_of_kind (kind : Kind) : kind.flag ≤ Header.maxFlag := by
  cases kind <;> decide

theorem encode_ofKind {id : UInt64} (hid : id ≤ Header.maxId) (kind : Kind) (payload : Bytes) :
    (ofKind id kind payload).encode = .ok (ofKind id kind payload).wire :=
  encode_eq hid (flag_le_of_kind kind)

theorem kind?_ofKind (id : UInt64) (kind : Kind) (payload : Bytes) :
    (ofKind id kind payload).kind? = some kind :=
  Kind.ofFlag?_flag kind

theorem toNat_lengthWord {payload : Bytes} (h : payload.length < 2 ^ 64) :
    (lengthWord payload).toNat = payload.length := by
  rw [lengthWord, UInt64.toNat_ofNat', Nat.mod_eq_of_lt h]

/-! ### Header and length -/

/-- Header and length are read back from the bytes of a frame. -/
theorem scan_wire_append {frame : Frame} (h : frame.Fits) (limit : Nat) (rest : Bytes) :
    Preamble.scan (frame.wire ++ rest) limit =
      if frame.payload.length > limit then .error (.tooLarge (lengthWord frame.payload) limit)
      else .ok (some ⟨frame.id, frame.flag, frame.payload.length,
        Varint.size (Header.word frame.id frame.flag) +
          Varint.size (lengthWord frame.payload)⟩) := by
  have hsplit := Header.split_word h.id_le h.flag_le
  have hlength := toNat_lengthWord h.length_lt
  have hskip : (Varint.encode (Header.word frame.id frame.flag) ++
      (Varint.encode (lengthWord frame.payload) ++ (frame.payload ++ rest))).drop
        (Varint.size (Header.word frame.id frame.flag)) =
      Varint.encode (lengthWord frame.payload) ++ (frame.payload ++ rest) := by
    rw [← Varint.length_encode, List.drop_left]
  simp only [wire, List.append_assoc, Preamble.scan, Varint.decode_encode_append, hskip, hlength,
    hsplit]

/-- What was read from the front of a byte string is read the same when more bytes follow, and lies
within the bytes that were there. -/
theorem scan_append {bytes : Bytes} {limit : Nat} {preamble : Preamble}
    (h : Preamble.scan bytes limit = .ok (some preamble)) (more : Bytes) :
    Preamble.scan (bytes ++ more) limit = .ok (some preamble) ∧ 0 < preamble.size ∧
      preamble.size ≤ bytes.length ∧ preamble.payloadSize ≤ limit ∧
      preamble.payloadSize < 2 ^ 64 ∧ preamble.id ≤ Header.maxId ∧
      preamble.flag ≤ Header.maxFlag := by
  obtain ⟨header, headerSize, length, lengthSize, hheader, hlength, hlimit, rfl⟩ :=
    Preamble.values_of_scan h
  have hsize := Varint.size_of_decode hheader
  have hsize' := Varint.size_of_decode hlength
  have hbehind : Varint.decode ((bytes ++ more).drop headerSize) = .value length lengthSize := by
    rw [List.drop_append_of_le_length hsize.2]
    exact Varint.decode_append hlength more
  have hmore := Preamble.scan_of_values (Varint.decode_append hheader more) hbehind limit
  rw [if_neg (Nat.not_lt.mpr hlimit)] at hmore
  rw [List.length_drop] at hsize'
  have hle := Header.split_le header
  exact ⟨hmore, by simp only; omega, by simp only; omega, hlimit, length.toNat_lt, hle.1, hle.2⟩

/-! ### Cutting -/

section Cut

variable {bytes rest : Bytes} {limit : Nat} {frame : Frame} {preamble : Preamble}

/-- Header and length decide what is cut off, once the whole frame is there. -/
theorem cut_of_scan (h : Preamble.scan bytes limit = .ok (some preamble)) :
    cut bytes limit =
      if bytes.length < preamble.frameSize then .ok none
      else .ok (some (⟨preamble.id, preamble.flag,
        (bytes.drop preamble.size).take preamble.payloadSize⟩, bytes.drop preamble.frameSize)) := by
  have hsize := (scan_append h []).2.2.1
  have hshort : ((bytes.drop preamble.size).take preamble.payloadSize).length <
      preamble.payloadSize ↔ bytes.length < preamble.frameSize := by
    rw [List.length_take, List.length_drop, Preamble.frameSize]
    omega
  simp only [cut, h]
  by_cases hlt : bytes.length < preamble.frameSize
  · rw [if_pos hlt, if_pos (hshort.mpr hlt)]
  · rw [if_neg hlt, if_neg (mt hshort.mp hlt), List.drop_drop, Preamble.frameSize]

theorem cut_of_scan_none (h : Preamble.scan bytes limit = .ok none) :
    cut bytes limit = .ok none := by
  rw [cut, h]

theorem cut_of_scan_error {fault : FrameFault} (h : Preamble.scan bytes limit = .error fault) :
    cut bytes limit = .error fault := by
  rw [cut, h]

/-- What is cut off has its header and its length in front, and the payload behind them. -/
theorem scan_of_cut (h : cut bytes limit = .ok (some (frame, rest))) :
    ∃ preamble, Preamble.scan bytes limit = .ok (some preamble) ∧
      preamble.frameSize ≤ bytes.length ∧
      frame = ⟨preamble.id, preamble.flag,
        (bytes.drop preamble.size).take preamble.payloadSize⟩ ∧
      rest = bytes.drop preamble.frameSize := by
  rcases hscan : Preamble.scan bytes limit with fault | _ | preamble
  · rw [cut_of_scan_error hscan] at h
    cases h
  · rw [cut_of_scan_none hscan] at h
    cases h
  · rw [cut_of_scan hscan] at h
    split at h
    · cases h
    · rename_i hsize
      cases h
      exact ⟨preamble, rfl, Nat.le_of_not_lt hsize, rfl, rfl⟩

/-- Bytes that make no frame yet lack some of the header or the length, or some of the payload. -/
theorem scan_of_cut_none (h : cut bytes limit = .ok none) :
    Preamble.scan bytes limit = .ok none ∨
      ∃ preamble, Preamble.scan bytes limit = .ok (some preamble) ∧
        bytes.length < preamble.frameSize := by
  rcases hscan : Preamble.scan bytes limit with fault | _ | preamble
  · rw [cut_of_scan_error hscan] at h
    cases h
  · exact Or.inl rfl
  · rw [cut_of_scan hscan] at h
    split at h
    · exact Or.inr ⟨preamble, rfl, ‹_›⟩
    · cases h

/-- Bytes that are no frame are found to be none in the header or the length. -/
theorem scan_of_cut_error {fault : FrameFault} (h : cut bytes limit = .error fault) :
    Preamble.scan bytes limit = .error fault := by
  rcases hscan : Preamble.scan bytes limit with other | _ | preamble
  · rw [cut_of_scan_error hscan] at h
    exact congrArg Except.error (Except.error.inj h)
  · rw [cut_of_scan_none hscan] at h
    cases h
  · rw [cut_of_scan hscan] at h
    split at h <;> cases h

/-- The bytes of a frame, with anything behind them, give the frame and what is behind, unless the
payload is above the limit. -/
theorem cut_wire_append (h : frame.Fits) (limit : Nat) (rest : Bytes) :
    cut (frame.wire ++ rest) limit =
      if frame.payload.length > limit then .error (.tooLarge (lengthWord frame.payload) limit)
      else .ok (some (frame, rest)) := by
  have hskip : (frame.wire ++ rest).drop (Varint.size (Header.word frame.id frame.flag) +
      Varint.size (lengthWord frame.payload)) = frame.payload ++ rest := by
    rw [wire, List.append_assoc, ← Varint.length_encode, ← Varint.length_encode,
      ← List.length_append, List.drop_left]
  unfold cut
  rw [scan_wire_append h]
  by_cases hlimit : frame.payload.length > limit
  · simp only [if_pos hlimit]
  · simp only [if_neg hlimit, hskip]
    simp

/-- A frame once cut off is the same one when more bytes follow. -/
theorem cut_append (h : cut bytes limit = .ok (some (frame, rest))) (more : Bytes) :
    cut (bytes ++ more) limit = .ok (some (frame, rest ++ more)) := by
  obtain ⟨preamble, hscan, hthere, rfl, rfl⟩ := scan_of_cut h
  obtain ⟨hmore, -, hsize, -⟩ := scan_append hscan more
  have hbody : preamble.payloadSize ≤ (bytes.drop preamble.size).length := by
    rw [Preamble.frameSize] at hthere
    rw [List.length_drop]
    omega
  rw [cut_of_scan hmore, if_neg (by rw [List.length_append]; omega),
    List.drop_append_of_le_length hsize, List.take_append_of_le_length hbody,
    List.drop_append_of_le_length hthere]

theorem fits_of_cut (h : cut bytes limit = .ok (some (frame, rest))) :
    frame.Fits ∧ frame.payload.length ≤ limit := by
  obtain ⟨preamble, hscan, -, rfl, -⟩ := scan_of_cut h
  obtain ⟨-, -, -, hlimit, hword, hid, hflag⟩ := scan_append hscan []
  have hlength : ((bytes.drop preamble.size).take preamble.payloadSize).length ≤
      preamble.payloadSize := List.length_take_le ..
  exact ⟨⟨hid, hflag, hlength.trans_lt hword⟩, hlength.trans hlimit⟩

end Cut

/-- **The front of a row of frames.**  If some bytes, followed by more, are the bytes of a row of
frames, then what is cut off the first part is the first frame of the row. -/
theorem eq_head_of_cut {bytes rest more : Bytes} {limit : Nat} {frame : Frame} {row : List Frame}
    (hfits : ∀ f ∈ row, f.Fits) (hrow : bytes ++ more = row.flatMap wire)
    (h : cut bytes limit = .ok (some (frame, rest))) :
    ∃ others, row = frame :: others ∧ rest ++ more = others.flatMap wire := by
  have hcut := cut_append h more
  rw [hrow] at hcut
  cases row with
  | nil => cases hcut
  | cons head others =>
    rw [List.flatMap_cons, cut_wire_append (hfits head (by simp))] at hcut
    split at hcut
    · cases hcut
    · obtain ⟨rfl, hrest⟩ := Prod.mk.inj (Option.some.inj (Except.ok.inj hcut))
      exact ⟨others, rfl, hrest.symm⟩

end Frame

end StreamMux
