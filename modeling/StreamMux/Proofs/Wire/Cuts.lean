import StreamMux.Proofs.Wire.Frame

/-!
# Rows of frames

* `Frame.decode_eq` — a byte string is read as one frame by cutting one off it, and
  `Frame.decode_wire`: a frame is read back from its bytes;
* `Frame.cutAll` — as many frames as stand in front of a byte string, and what is behind them;
* `Frame.cutAll_flatMap_wire` — a row of frames is read back from its bytes, and nothing is left.
-/

namespace StreamMux.Frame

/-! ### One frame -/

theorem length_le_noLimit {frame : Frame} (h : frame.Fits) : frame.payload.length ≤ noLimit := by
  have hlength := h.length_lt
  simp only [noLimit, UInt64.size]
  omega

/-- **One frame and nothing else.**  What is read as one frame is cut off the front, and nothing may
be behind it. -/
theorem decode_eq (bytes : Bytes) : decode bytes =
    match cut bytes noLimit with
    | .error fault => .error fault
    | .ok none => .error .truncated
    | .ok (some (frame, rest)) =>
      if rest = [] then .ok frame
      else .error (.sizeMismatch (bytes.length - rest.length) bytes.length) := by
  unfold decode
  rcases hscan : Preamble.scan bytes noLimit with fault | _ | preamble
  · rw [cut_of_scan_error hscan]
  · rw [cut_of_scan_none hscan]
  · rw [cut_of_scan hscan]
    by_cases hshort : bytes.length < preamble.frameSize
    · simp only [if_pos hshort]
    · simp only [if_neg hshort, List.drop_eq_nil_iff]
      by_cases hwhole : bytes.length = preamble.frameSize
      · have hpayload : (bytes.drop preamble.size).length ≤ preamble.payloadSize := by
          rw [Preamble.frameSize] at hwhole
          rw [List.length_drop]
          omega
        rw [if_neg (not_not.mpr hwhole), if_pos (Nat.le_of_eq hwhole),
          List.take_of_length_le hpayload]
      · rw [if_pos hwhole, if_neg (by omega), List.length_drop,
          Nat.sub_sub_self (Nat.le_of_not_lt hshort)]

theorem decode_eq_ok_iff {bytes : Bytes} {frame : Frame} :
    decode bytes = .ok frame ↔ cut bytes noLimit = .ok (some (frame, [])) := by
  rw [decode_eq]
  rcases cut bytes noLimit with fault | _ | ⟨other, rest⟩
  · simp
  · simp
  · by_cases hrest : rest = [] <;> simp [hrest]

theorem decode_wire {frame : Frame} (h : frame.Fits) : decode frame.wire = .ok frame := by
  have hcut := cut_wire_append h noLimit []
  rw [List.append_nil, if_neg (Nat.not_lt.mpr (length_le_noLimit h))] at hcut
  exact decode_eq_ok_iff.mpr hcut

/-- Whatever is read off the bytes of a frame has its number, even if the payload is too long. -/
theorem id_eq_of_decode_wire {frame other : Frame} (hid : frame.id ≤ Header.maxId)
    (hflag : frame.flag ≤ Header.maxFlag) (h : decode frame.wire = .ok other) :
    other.id = frame.id := by
  obtain ⟨preamble, hscan, -, rfl, -⟩ := scan_of_cut (decode_eq_ok_iff.mp h)
  obtain ⟨header, headerSize, length, lengthSize, hheader, -, -, rfl⟩ :=
    Preamble.values_of_scan hscan
  rw [wire, List.append_assoc, Varint.decode_encode_append] at hheader
  cases hheader
  rw [Header.split_word hid hflag]

/-- Frames that were written one by one are read back one by one. -/
theorem filterMap_decode_wire {frames : List Frame} (h : ∀ frame ∈ frames, frame.Fits) :
    (frames.map wire).filterMap (fun chunk => (decode chunk).toOption) = frames := by
  induction frames with
  | nil => rfl
  | cons frame others ih =>
    rw [List.map_cons, List.filterMap_cons, decode_wire (h frame (by simp))]
    exact congrArg (frame :: ·) (ih fun other hmem => h other (List.mem_cons_of_mem _ hmem))

/-! ### All frames -/

theorem length_lt_of_cut {bytes rest : Bytes} {limit : Nat} {frame : Frame}
    (h : cut bytes limit = .ok (some (frame, rest))) : rest.length < bytes.length := by
  obtain ⟨preamble, hscan, hthere, -, rfl⟩ := scan_of_cut h
  obtain ⟨-, hpos, -⟩ := scan_append hscan []
  rw [Preamble.frameSize] at hthere ⊢
  rw [List.length_drop]
  omega

/-- The frames in front of a byte string, and what is behind them. -/
def cutAll (bytes : Bytes) : List Frame × Bytes :=
  match _h : cut bytes noLimit with
  | .ok (some (frame, rest)) => (frame :: (cutAll rest).1, (cutAll rest).2)
  | _ => ([], bytes)
termination_by bytes.length
decreasing_by all_goals exact length_lt_of_cut _h

theorem cutAll_nil : cutAll [] = ([], []) := by
  unfold cutAll
  rfl

theorem cutAll_wire_append {frame : Frame} (h : frame.Fits) (rest : Bytes) :
    cutAll (frame.wire ++ rest) = (frame :: (cutAll rest).1, (cutAll rest).2) := by
  have hcut : cut (frame.wire ++ rest) noLimit = .ok (some (frame, rest)) := by
    rw [cut_wire_append h, if_neg (Nat.not_lt.mpr (length_le_noLimit h))]
  rw [cutAll]
  split
  · rename_i heq
    rw [hcut] at heq
    cases heq
    rfl
  · rename_i hne
    exact absurd hcut (hne _ _)

/-- **A row of frames is read back from its bytes.** -/
theorem cutAll_flatMap_wire {row : List Frame} (h : ∀ frame ∈ row, frame.Fits) :
    cutAll (row.flatMap wire) = (row, []) := by
  induction row with
  | nil => exact cutAll_nil
  | cons frame others ih =>
    rw [List.flatMap_cons, cutAll_wire_append (h frame (by simp)),
      ih fun other hmem => h other (List.mem_cons_of_mem _ hmem)]

end StreamMux.Frame
