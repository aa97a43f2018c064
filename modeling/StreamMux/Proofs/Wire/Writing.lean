import StreamMux.Proofs.Wire.Cuts

/-!
# Writing a frame and reading it back

A frame is written by itself, or behind what is already written.  Its bytes are the same both ways,
their number is known beforehand, and a frame that cannot be written leaves no byte behind.  What
was written is read back as it was, whatever stands behind it.

* `Frame.appendTo_eq` — writing behind other bytes is writing the frame by itself, and putting its
  bytes there;
* `Frame.writers_agree` — the sizes computed beforehand and the two ways to write agree;
* `Frame.written_iff` — a frame is written exactly if number and flag have room in the header;
* `Frame.reads_back` — header, length and payload come out of the bytes that they were put into.
-/

namespace StreamMux.Frame

/-! ### Behind other bytes -/

/-- **Writing behind other bytes.**  It takes the bytes that the frame takes by itself, and a frame
that cannot be written leaves what is there. -/
theorem appendTo_eq (frame : Frame) (buffer : Bytes) :
    frame.appendTo buffer =
      match frame.encode with
      | .ok bytes => (buffer ++ bytes, .ok bytes.length)
      | .error fault => (buffer, .error fault) := by
  rcases Header.combine_cases frame.id frame.flag with
    ⟨-, hcombine⟩ | ⟨-, -, hcombine⟩ | ⟨hid, hflag, hcombine⟩
  · simp only [appendTo, encode, hcombine]
  · simp only [appendTo, encode, hcombine]
  · have hlonger : buffer ++ Varint.encode (Header.word frame.id frame.flag) ++
        Varint.encode (lengthWord frame.payload) ++ frame.payload = buffer ++ frame.wire := by
      simp only [wire, List.append_assoc]
    rw [encode_eq hid hflag]
    simp only [appendTo, hcombine, hlonger, List.length_append, Nat.add_sub_cancel_left]

/-- **The sizes and the writers agree.**  A value takes as many bytes as its bit length says, so
that no frame is refused for its size.  Writing a frame behind other bytes puts just those bytes
there that it takes by itself, as many as its size on the wire, or is refused for the same reason
and changes nothing. -/
theorem writers_agree :
    (∀ value, (Varint.encode value).length = Varint.size value) ∧
    (∀ (frame : Frame) expected actual, frame.encode ≠ .error (.sizeMismatch expected actual)) ∧
    ∀ (frame : Frame) (buffer : Bytes),
      (∃ bytes, frame.encode = .ok bytes ∧ bytes.length = frame.wireSize ∧
        frame.appendTo buffer = (buffer ++ bytes, .ok bytes.length)) ∨
      (∃ fault, frame.encode = .error fault ∧ frame.appendTo buffer = (buffer, .error fault)) := by
  refine ⟨Varint.length_encode, ?_, ?_⟩
  · intro frame expected actual hmismatch
    rcases frame.encode_cases with ⟨-, hencode⟩ | ⟨-, -, hencode⟩ | ⟨-, -, hencode⟩ <;>
      · rw [hencode] at hmismatch
        cases hmismatch
  · intro frame buffer
    rw [appendTo_eq]
    rcases hencode : frame.encode with fault | bytes
    · exact Or.inr ⟨fault, rfl, rfl⟩
    · refine Or.inl ⟨bytes, rfl, ?_, rfl⟩
      rw [eq_wire_of_encode hencode, length_wire]

/-- Two frames in one buffer, with one between them that has no room for its flag. -/
example : (appendTo ⟨3, 4, []⟩ (appendTo ⟨300, 8, [1]⟩ (appendTo ⟨300, 2, [1]⟩ []).1).1).1 =
    [0xe2, 0x12, 0x01, 0x01, 0x1c, 0x00] := by
  decide +kernel

/-! ### Reading back -/

theorem maxId_lt_iff (id : UInt64) : Header.maxId < id ↔ 2 ^ 61 - 1 < id.toNat :=
  UInt64.lt_iff_toNat_lt

theorem maxFlag_lt_iff (flag : UInt8) : Header.maxFlag < flag ↔ 7 < flag.toNat :=
  UInt8.lt_iff_toNat_lt

/-- **Which frames are written.**  Number and flag must have room in the header, and nothing else
matters. -/
theorem written_iff (frame : Frame) :
    (∃ bytes, frame.encode = .ok bytes) ↔ frame.id.toNat ≤ 2 ^ 61 - 1 ∧ frame.flag.toNat ≤ 7 := by
  rw [← Nat.not_lt, ← Nat.not_lt, ← maxId_lt_iff, ← maxFlag_lt_iff, UInt64.not_lt, UInt8.not_lt]
  constructor
  · rintro ⟨bytes, hencode⟩
    exact ⟨(of_encode hencode).1, (of_encode hencode).2.1⟩
  · rintro ⟨hid, hflag⟩
    exact ⟨_, encode_eq hid hflag⟩

/-- A number without room is what is wrong with a frame, whatever its flag; else it is the flag. -/
theorem encode_eq_error_iff (frame : Frame) (fault : FrameFault) :
    frame.encode = .error fault ↔
      2 ^ 61 - 1 < frame.id.toNat ∧ fault = .idOutOfRange frame.id ∨
      frame.id.toNat ≤ 2 ^ 61 - 1 ∧ 7 < frame.flag.toNat ∧ fault = .invalidFlag frame.flag := by
  rw [← Nat.not_lt, ← maxId_lt_iff, ← maxFlag_lt_iff, UInt64.not_lt]
  constructor
  · intro hfault
    rcases frame.encode_cases with ⟨hid, hencode⟩ | ⟨hid, hflag, hencode⟩ | ⟨-, -, hencode⟩
    · rw [hencode] at hfault
      exact Or.inl ⟨hid, (Except.error.inj hfault).symm⟩
    · rw [hencode] at hfault
      exact Or.inr ⟨hid, hflag, (Except.error.inj hfault).symm⟩
    · rw [hencode] at hfault
      cases hfault
  · rintro (⟨hid, rfl⟩ | ⟨hid, hflag, rfl⟩)
    · rcases frame.encode_cases with ⟨-, hencode⟩ | ⟨hid', -⟩ | ⟨hid', -⟩
      · exact hencode
      · exact absurd hid (UInt64.not_lt.mpr hid')
      · exact absurd hid (UInt64.not_lt.mpr hid')
    · rcases frame.encode_cases with ⟨hid', -⟩ | ⟨-, -, hencode⟩ | ⟨-, hflag', -⟩
      · exact absurd hid' (UInt64.not_lt.mpr hid)
      · exact hencode
      · exact absurd hflag (UInt8.not_lt.mpr hflag')

/-- **A frame is read back from its bytes.**  It is written exactly if number and flag have room,
and a number without room is reported first.  The bytes are read as this frame; and with anything
behind them, under any limit that the payload keeps, header and length tell its number, its flag,
the length of its payload and the number of its bytes. -/
theorem reads_back (frame : Frame) (hlength : frame.payload.length < 2 ^ 64) :
    ((∃ bytes, frame.encode = .ok bytes) ↔
      frame.id.toNat ≤ 2 ^ 61 - 1 ∧ frame.flag.toNat ≤ 7) ∧
    (∀ fault, frame.encode = .error fault ↔
      2 ^ 61 - 1 < frame.id.toNat ∧ fault = .idOutOfRange frame.id ∨
      frame.id.toNat ≤ 2 ^ 61 - 1 ∧ 7 < frame.flag.toNat ∧ fault = .invalidFlag frame.flag) ∧
    ∀ bytes, frame.encode = .ok bytes →
      decode bytes = .ok frame ∧
      ∀ rest limit, frame.payload.length ≤ limit →
        ∃ preamble, Preamble.scan (bytes ++ rest) limit = .ok (some preamble) ∧
          preamble.id = frame.id ∧ preamble.flag = frame.flag ∧
          preamble.payloadSize = frame.payload.length ∧ preamble.frameSize = bytes.length := by
  refine ⟨frame.written_iff, frame.encode_eq_error_iff, ?_⟩
  intro bytes hencode
  have hfits := fits_of_encode hencode hlength
  obtain rfl := eq_wire_of_encode hencode
  refine ⟨decode_wire hfits, ?_⟩
  intro rest limit hlimit
  have hscan := scan_wire_append hfits limit rest
  rw [if_neg (Nat.not_lt.mpr hlimit)] at hscan
  exact ⟨_, hscan, rfl, rfl, rfl, frame.length_wire.symm⟩

/-- The largest number beside the largest flag, with a payload whose length takes two bytes, and
behind it bytes that would go on with any value. -/
def widest : Frame := ⟨0x1fffffffffffffff, 7, List.replicate 128 0xff⟩

theorem reads_back_widest :
    widest.payload.length < 2 ^ 64 ∧
    ∃ bytes, widest.encode = .ok bytes ∧ decode bytes = .ok widest ∧
      ∃ preamble, Preamble.scan (bytes ++ [0xff, 0xff]) 128 = .ok (some preamble) ∧
        preamble.payloadSize = 128 ∧ preamble.frameSize = bytes.length := by
  have hsize : widest.payload.length = 128 := List.length_replicate
  have hlength : widest.payload.length < 2 ^ 64 := by
    rw [hsize]
    decide
  obtain ⟨hwritten, -, hback⟩ := reads_back widest hlength
  obtain ⟨bytes, hencode⟩ := hwritten.mpr ⟨by decide, by decide⟩
  obtain ⟨hdecode, hscan⟩ := hback bytes hencode
  obtain ⟨preamble, hpreamble, -, -, hpayload, hframe⟩ := hscan [0xff, 0xff] 128 hsize.le
  exact ⟨hlength, bytes, hencode, hdecode, preamble, hpreamble, hpayload.trans hsize, hframe⟩

end StreamMux.Frame
