import StreamMux.Proofs.Wire.Cuts
import StreamMux.Proofs.Wire.Oversize

/-!
# The pieces of a byte string

A byte string falls into the bytes of frames, one behind the other, and what stands behind the last
of them: nothing, a frame that is not all there yet, or bytes that are no frame.  Where one piece
ends and the next begins is a matter of the bytes alone.

* `Frame.Piece` — the bytes of one frame, not necessarily its shortest form, with the frame;
* `Frame.pieces` — the pieces of a byte string, and what stands behind them;
* `Frame.Piece.decode_bytes` — every piece is read as its frame by itself;
* `Frame.pieces_flatMap_append` — pieces in front of some bytes come in front of their pieces.
-/

namespace StreamMux

/-- What stands in front of a payload is read from its own bytes, under its own limit. -/
theorem Preamble.scan_take {bytes : Bytes} {limit kept other : Nat} {preamble : Preamble}
    (h : scan bytes limit = .ok (some preamble)) (hkept : preamble.size ≤ kept)
    (hother : preamble.payloadSize ≤ other) :
    scan (bytes.take kept) other = .ok (some preamble) := by
  obtain ⟨header, headerSize, length, lengthSize, hheader, hlength, -, rfl⟩ := values_of_scan h
  simp only at hkept hother
  have hbehind : Varint.decode ((bytes.take kept).drop headerSize) = .value length lengthSize := by
    rw [List.drop_take]
    exact Varint.decode_take hlength (by omega)
  rw [scan_of_values (Varint.decode_take hheader (by omega)) hbehind,
    if_neg (Nat.not_lt.mpr hother)]

namespace Frame

/-! ### One piece -/

/-- The bytes of one frame, all of them and no others, under a limit to its payload. -/
structure Piece (limit : Nat) where
  bytes : Bytes
  frame : Frame
  whole : cut bytes limit = .ok (some (frame, []))

variable {limit : Nat} {bytes rest : Bytes}

namespace Piece

theorem cut_append (piece : Piece limit) (rest : Bytes) :
    cut (piece.bytes ++ rest) limit = .ok (some (piece.frame, rest)) :=
  Frame.cut_append piece.whole rest

theorem length_pos (piece : Piece limit) : 0 < piece.bytes.length :=
  length_lt_of_cut piece.whole

/-- **A piece is read as its frame by itself.** -/
theorem decode_bytes (piece : Piece limit) : decode piece.bytes = .ok piece.frame := by
  obtain ⟨preamble, hscan, hthere, hframe, hrest⟩ := scan_of_cut piece.whole
  obtain ⟨-, -, hsize, -, hword, -⟩ := scan_append hscan []
  have hanew := Preamble.scan_take hscan hsize
    (show preamble.payloadSize ≤ noLimit by simp only [noLimit, UInt64.size]; omega)
  rw [List.take_length] at hanew
  rw [decode_eq_ok_iff, cut_of_scan hanew, if_neg (Nat.not_lt.mpr hthere), ← hframe, ← hrest]

end Piece

/-- What is cut off the front of some bytes is a piece of its own. -/
theorem whole_of_cut {frame : Frame} (h : cut bytes limit = .ok (some (frame, rest))) :
    cut (bytes.take (bytes.length - rest.length)) limit = .ok (some (frame, [])) := by
  obtain ⟨preamble, hscan, hthere, rfl, rfl⟩ := scan_of_cut h
  have hlimit := (scan_append hscan []).2.2.2.1
  have hagain := Preamble.scan_take hscan (show preamble.size ≤ preamble.frameSize from
    Nat.le_add_right _ _) hlimit
  have hbody : (bytes.take preamble.frameSize).drop preamble.size =
      (bytes.drop preamble.size).take preamble.payloadSize := by
    rw [List.drop_take, Preamble.frameSize, Nat.add_sub_cancel_left]
  have hall : (bytes.take preamble.frameSize).length = preamble.frameSize := by
    rw [List.length_take, Nat.min_eq_left hthere]
  rw [List.length_drop, Nat.sub_sub_self hthere, cut_of_scan hagain, hall,
    if_neg (Nat.lt_irrefl _), hbody, List.take_take, Nat.min_self,
    List.drop_eq_nil_of_le (Nat.le_of_eq hall)]

/-- What is cut off and the rest are the bytes that were there. -/
theorem append_of_cut {frame : Frame} (h : cut bytes limit = .ok (some (frame, rest))) :
    bytes.take (bytes.length - rest.length) ++ rest = bytes := by
  have hagain := cut_append (whole_of_cut h) (bytes.drop (bytes.length - rest.length))
  rw [List.take_append_drop, h, List.nil_append] at hagain
  obtain ⟨-, hrest⟩ := Prod.mk.inj (Option.some.inj (Except.ok.inj hagain))
  calc bytes.take (bytes.length - rest.length) ++ rest
      = bytes.take (bytes.length - rest.length) ++ bytes.drop (bytes.length - rest.length) :=
        congrArg _ hrest
    _ = bytes := List.take_append_drop _ _

/-! ### All pieces -/

/-- The pieces in front of some bytes, and what stands behind them. -/
def pieces (limit : Nat) (bytes : Bytes) : List (Piece limit) × Bytes :=
  match h : cut bytes limit with
  | .ok (some (frame, rest)) =>
    (⟨bytes.take (bytes.length - rest.length), frame, whole_of_cut h⟩ :: (pieces limit rest).1,
      (pieces limit rest).2)
  | .ok none => ([], bytes)
  | .error _ => ([], bytes)
termination_by bytes.length
decreasing_by all_goals exact length_lt_of_cut h

theorem pieces_of_none (h : cut bytes limit = .ok none) : pieces limit bytes = ([], bytes) := by
  unfold pieces
  split
  · rename_i heq
    rw [h] at heq
    cases heq
  · rfl
  · rfl

theorem pieces_of_error {fault : FrameFault} (h : cut bytes limit = .error fault) :
    pieces limit bytes = ([], bytes) := by
  unfold pieces
  split
  · rename_i heq
    rw [h] at heq
    cases heq
  · rfl
  · rfl

/-- A piece in front of some bytes comes in front of their pieces. -/
theorem pieces_append (piece : Piece limit) (rest : Bytes) :
    pieces limit (piece.bytes ++ rest) =
      (piece :: (pieces limit rest).1, (pieces limit rest).2) := by
  have hcut := piece.cut_append rest
  rw [pieces]
  split
  · rename_i frame after heq
    rw [hcut] at heq
    obtain ⟨hframe, hafter⟩ := Prod.mk.inj (Option.some.inj (Except.ok.inj heq))
    subst hafter
    have hbytes : (piece.bytes ++ rest).take ((piece.bytes ++ rest).length - rest.length) =
        piece.bytes := by
      rw [List.length_append, Nat.add_sub_cancel, List.take_left]
    congr 2
    cases piece
    simp only [Piece.mk.injEq]
    exact ⟨hbytes, hframe.symm⟩
  · rename_i heq
    rw [hcut] at heq
    cases heq
  · rename_i heq
    rw [hcut] at heq
    cases heq

/-- Pieces in front of some bytes come in front of their pieces. -/
theorem pieces_flatMap_append (row : List (Piece limit)) (rest : Bytes) :
    pieces limit (row.flatMap Piece.bytes ++ rest) =
      (row ++ (pieces limit rest).1, (pieces limit rest).2) := by
  induction row with
  | nil => rfl
  | cons piece others ih =>
    rw [List.flatMap_cons, List.append_assoc, pieces_append, ih, List.cons_append]

end Frame

end StreamMux
