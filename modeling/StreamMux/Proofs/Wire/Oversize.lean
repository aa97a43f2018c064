import StreamMux.Proofs.Wire.Frame

/-!
# Bytes that are no frame

* `Frame.cut_error_append` — bytes that are no frame are none when more bytes follow;
* `Frame.too_long_of_cut` — a row of frames is no frame only if the first of them is too long;
* `Assembler.take_wire` — an assembler takes a frame off its bytes exactly if its payload is within
  the limit.
-/

namespace StreamMux

theorem Preamble.scan_error_append {bytes : Bytes} {limit : Nat} {fault : FrameFault}
    (h : scan bytes limit = .error fault) (more : Bytes) :
    scan (bytes ++ more) limit = .error fault := by
  rcases values_of_scan_error h with ⟨hheader, rfl⟩ | ⟨header, headerSize, hheader, hlength⟩
  · rw [scan, Varint.decode_overflow_append hheader]
  · have hmore := Varint.decode_append hheader more
    have hbehind : (bytes ++ more).drop headerSize = bytes.drop headerSize ++ more :=
      List.drop_append_of_le_length (Varint.size_of_decode hheader).2
    rcases hlength with ⟨hlength, rfl⟩ | ⟨length, lengthSize, hlength, hlarge, rfl⟩
    · simp only [scan, hmore, hbehind, Varint.decode_overflow_append hlength]
    · have hlength' := Varint.decode_append hlength more
      rw [← hbehind] at hlength'
      rw [scan_of_values hmore hlength', if_pos hlarge]

theorem Frame.cut_error_append {bytes : Bytes} {limit : Nat} {fault : FrameFault}
    (h : cut bytes limit = .error fault) (more : Bytes) :
    cut (bytes ++ more) limit = .error fault :=
  cut_of_scan_error (Preamble.scan_error_append (scan_of_cut_error h) more)

/-- A row of frames is no frame only if the first of them is too long. -/
theorem Frame.too_long_of_cut {row : List Frame} {bytes more : Bytes} {limit : Nat}
    {fault : FrameFault} (hfits : ∀ f ∈ row, f.Fits) (hrow : bytes ++ more = row.flatMap wire)
    (h : cut bytes limit = .error fault) :
    ∃ frame others, row = frame :: others ∧ limit < frame.payload.length ∧
      fault = .tooLarge (lengthWord frame.payload) limit := by
  have hcut := cut_error_append h more
  rw [hrow] at hcut
  cases row with
  | nil => cases hcut
  | cons frame others =>
    rw [List.flatMap_cons, cut_wire_append (hfits frame (by simp))] at hcut
    split at hcut
    · rename_i hlong
      exact ⟨frame, others, rfl, hlong, (Except.error.inj hcut).symm⟩
    · cases hcut

/-- An assembler with the same limit takes a frame off the front exactly if its payload is within
the limit. -/
theorem Assembler.take_wire {frame : Frame} (h : frame.Fits) (limit : Nat) (rest : Bytes) :
    (Assembler.mk (frame.wire ++ rest)).take limit =
      if frame.payload.length ≤ limit then (⟨rest⟩, .ok (some frame))
      else (⟨frame.wire ++ rest⟩, .error (.tooLarge (Frame.lengthWord frame.payload) limit)) := by
  simp only [take, Frame.cut_wire_append h]
  by_cases hle : frame.payload.length ≤ limit
  · rw [if_neg (Nat.not_lt.mpr hle), if_pos hle]
  · rw [if_pos (Nat.lt_of_not_le hle), if_neg hle]

end StreamMux
