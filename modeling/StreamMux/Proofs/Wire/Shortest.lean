import StreamMux.Proofs.Wire.Frame

/-!
# The shortest form of a frame

A variable-length integer can be written in more bytes than it takes, with groups of zeros behind
its highest group, and it is read all the same.  So there are many ways to write the header and the
length of a frame, and `Frame.wire` is the shortest of them.

* `Header.word_split` — nothing of a header is lost in its number and its flag;
* `Frame.taken_of_cut` — the bytes that a frame is cut from are at least as many as those it is
  written in, and just as many only if they are the same.
-/

namespace StreamMux

/-! ### Headers -/

/-- A header is put together again from what it was split into. -/
theorem Header.word_split (header : UInt64) :
    word (split header).1 (split header).2 = header := by
  have hid : (split header).1.toNat = header.toNat / 8 := by
    simp only [split, UInt64.toNat_shiftRight, UInt64.reduceToNat, Nat.shiftRight_eq_div_pow,
      Nat.reduceMod, Nat.reducePow]
  have hflag : (split header).2.toNat = header.toNat % 8 := by
    simp only [split, UInt64.toNat_toUInt8, UInt64.toNat_and, UInt64.reduceToNat]
    rw [show (7 : Nat) = 2 ^ 3 - 1 from rfl, Nat.and_two_pow_sub_one_eq_mod]
    omega
  apply UInt64.toNat_inj.mp
  rw [toNat_word _ (split_le header).1, hid, hflag]
  omega

/-! ### Frames -/

variable {bytes rest : Bytes} {limit : Nat}

/-- **A frame takes its shortest form or more.**  The bytes that a frame is cut from are as many as
those of its shortest form only if they are just those. -/
theorem Frame.taken_of_cut {frame : Frame} (h : cut bytes limit = .ok (some (frame, rest))) :
    ∃ taken, bytes = taken ++ rest ∧ frame.wireSize ≤ taken.length ∧
      (taken.length = frame.wireSize → taken = frame.wire) := by
  obtain ⟨preamble, hscan, hthere, rfl, rfl⟩ := scan_of_cut h
  obtain ⟨header, headerSize, length, lengthSize, hheader, hlength, -, rfl⟩ :=
    Preamble.values_of_scan hscan
  have hsizes := Varint.size_of_decode hheader
  have hsizes' := Varint.size_of_decode hlength
  rw [List.length_drop] at hsizes'
  simp only [Preamble.frameSize] at hthere ⊢
  generalize hdata : (bytes.drop (headerSize + lengthSize)).take length.toNat = payload
  have hpayload : payload.length = length.toNat := by
    rw [← hdata, List.length_take, List.length_drop]
    omega
  have hword : lengthWord payload = length := by
    rw [lengthWord, hpayload, UInt64.ofNat_toNat]
  have hle := Varint.size_le_count hheader
  have hle' := Varint.size_le_count hlength
  refine ⟨bytes.take headerSize ++ (bytes.drop headerSize).take lengthSize ++ payload, ?_, ?_⟩
  · rw [List.append_assoc, ← hdata, ← List.drop_drop (i := length.toNat), List.append_assoc,
      List.take_append_drop, ← List.drop_drop, List.take_append_drop, List.take_append_drop]
  · simp only [List.length_append, List.length_take, List.length_drop, wireSize, wire,
      Header.word_split, hword]
    refine ⟨by omega, fun hshort => ?_⟩
    rw [Varint.take_eq_encode hheader (by omega), Varint.take_eq_encode hlength (by omega)]

end StreamMux
