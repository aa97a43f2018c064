import StreamMux.Proofs.Wire.Pieces

/-!
# Reading one end of a link

* `Link.Receptive` — an end that is open, on a link that was not reset;
* `Link.Receptive.read` — a read there gives a chunk while there is something;
* `Assembler.Draws`, `Assembler.draws` — what one call of an assembler comes to there.
-/

namespace StreamMux

/-! ### An end that reads -/

namespace Link

variable {link after : Link} {side : Side}

/-- An end that is open, on a link that nobody reset, with no empty chunk on its way to it. -/
structure Receptive (link : Link) (side : Side) : Prop where
  near : link.isClosed side = false
  reset : link.wasReset = false
  full : ∀ chunk ∈ (link.ends.get side).inbox, chunk ≠ []

theorem receptive_new (side : Side) : Receptive {} side := by
  cases side <;> exact ⟨rfl, rfl, by simp [Both.get]⟩

theorem Receptive.write {chunk : Bytes} (h : link.Receptive side)
    (hwrite : link.write side.other chunk = .ok after) :
    after.Receptive side ∧ after.isClosed side.other = link.isClosed side.other := by
  unfold Link.write at hwrite
  split at hwrite
  · cases hwrite
  · split at hwrite
    · cases hwrite
      exact ⟨h, rfl⟩
    · rename_i hchunk
      cases hwrite
      rw [Side.other_other]
      refine ⟨⟨by simpa [isClosed] using h.near, h.reset, fun other hother => ?_⟩,
        by simp [isClosed]⟩
      simp only [Both.get_set_self, List.mem_append, List.mem_singleton] at hother
      rcases hother with hold | rfl
      · exact h.full other hold
      · rintro rfl
        exact hchunk rfl

/-- What the other end answers to a write: nothing goes wrong until it is closed. -/
theorem Receptive.write_eq (h : link.Receptive side) (chunk : Bytes) :
    (link.isClosed side.other = true ∧ link.write side.other chunk = .error .closed) ∨
      (link.isClosed side.other = false ∧ ∃ after, link.write side.other chunk = .ok after) := by
  unfold Link.write writeFault?
  by_cases hfar : link.isClosed side.other = true
  · exact Or.inl ⟨hfar, by rw [if_pos hfar]⟩
  · refine Or.inr ⟨Bool.eq_false_iff.mpr hfar, ?_⟩
    rw [if_neg hfar, Side.other_other, h.near, h.reset]
    simp only [Bool.or_self, Bool.false_eq_true, if_false]
    split <;> exact ⟨_, rfl⟩

theorem Receptive.close (h : link.Receptive side) : (link.close side.other).Receptive side := by
  refine ⟨?_, h.reset, ?_⟩
  · simpa [Link.close, isClosed] using h.near
  · simpa [Link.close] using h.full

/-- **A read gives a chunk while there is something.**  When there is nothing, it waits for the
other end, or comes to the end of what the other end wrote. -/
theorem Receptive.read (h : link.Receptive side) (size : Nat) :
    (∃ after chunk, link.read side size = (after, .ok (some chunk)) ∧ chunk ≠ [] ∧
      after.Receptive side ∧ after.isClosed side.other = link.isClosed side.other) ∨
    (link.read side size =
        (link, if link.isClosed side.other then .error .closed else .ok none) ∧
      (link.ends.get side).pending = []) := by
  have hnear : (link.ends.get side).closed = false := h.near
  have hsize : max size 1 ≠ 0 := by omega
  unfold Link.read
  simp only [hnear, h.reset, Bool.false_eq_true, if_false]
  by_cases hrest : (link.ends.get side).remainder = []
  · rw [if_neg (not_not.mpr hrest)]
    rcases hinbox : (link.ends.get side).inbox with _ | ⟨chunk, inbox⟩
    · exact Or.inr ⟨rfl, by simp [LinkEnd.pending, hrest, hinbox]⟩
    · have hchunk : chunk ≠ [] := h.full chunk (by rw [hinbox]; exact List.mem_cons_self ..)
      refine Or.inl ⟨_, _, rfl, ?_, ⟨?_, rfl, ?_⟩, by simp [isClosed]⟩
      · simpa [List.take_eq_nil_iff, hsize] using hchunk
      · simp [isClosed]
      · intro other hother
        simp only [Both.get_set_self] at hother
        exact h.full other (by rw [hinbox]; exact List.mem_cons_of_mem _ hother)
  · rw [if_pos hrest]
    refine Or.inl ⟨_, _, rfl, ?_, ⟨?_, rfl, ?_⟩, by simp [isClosed]⟩
    · simpa [List.take_eq_nil_iff, hsize] using hrest
    · simp [isClosed]
    · intro other hother
      simp only [Both.get_set_self] at hother
      exact h.full other hother

end Link

/-! ### One call -/

namespace Assembler

/-- What a call comes to: the bytes in the assembler, the bytes left on the link and the answer.
The assembler takes a chunk off the link, at most, and then a piece off its front, at most.  Only
once the other end is closed does it come to the end of the link. -/
inductive Draws (limit : Nat) (closed : Bool) (buffer pending : Bytes) :
    Bytes → Bytes → Except Fault (Option Frame) → Prop where
  | frame {chunk rest left : Bytes} (piece : Frame.Piece limit) (read : pending = chunk ++ left)
      (front : buffer ++ chunk = piece.bytes ++ rest) :
      Draws limit closed buffer pending rest left (.ok (some piece.frame))
  | unfinished {chunk left : Bytes} (read : pending = chunk ++ left)
      (cut : Frame.cut (buffer ++ chunk) limit = .ok none) (dry : chunk = [] → left = []) :
      Draws limit closed buffer pending (buffer ++ chunk) left (.ok none)
  | malformed {chunk left : Bytes} {fault : FrameFault} (read : pending = chunk ++ left)
      (cut : Frame.cut (buffer ++ chunk) limit = .error fault) :
      Draws limit closed buffer pending (buffer ++ chunk) left (.error (.frame fault))
  | ended (gone : closed = true) (dry : pending = []) (cut : Frame.cut buffer limit = .ok none) :
      Draws limit closed buffer pending buffer [] (.error (.link .closed))

section There

variable {limit : Nat} {closed : Bool} {buffer pending : Bytes}

theorem Draws.frame_there {frame : Frame} {rest : Bytes}
    (h : Frame.cut buffer limit = .ok (some (frame, rest))) :
    Draws limit closed buffer pending rest pending (.ok (some frame)) := by
  have hfront : buffer ++ [] = buffer.take (buffer.length - rest.length) ++ rest := by
    rw [List.append_nil, Frame.append_of_cut h]
  exact .frame ⟨_, frame, Frame.whole_of_cut h⟩ (List.nil_append _).symm hfront

theorem Draws.malformed_there {fault : FrameFault} (h : Frame.cut buffer limit = .error fault) :
    Draws limit closed buffer pending buffer pending (.error (.frame fault)) := by
  have hcut : Frame.cut (buffer ++ []) limit = .error fault := by rwa [List.append_nil]
  have hdraws : Draws limit closed buffer pending (buffer ++ []) pending _ :=
    .malformed (List.nil_append pending).symm hcut
  rwa [List.append_nil] at hdraws

theorem Draws.dry (h : Frame.cut buffer limit = .ok none) :
    Draws limit closed buffer [] buffer [] (.ok none) := by
  have hcut : Frame.cut (buffer ++ []) limit = .ok none := by rwa [List.append_nil]
  have hdraws : Draws limit closed buffer [] (buffer ++ []) [] _ :=
    .unfinished (List.nil_append []).symm hcut fun _ => rfl
  rwa [List.append_nil] at hdraws

end There

variable {link : Link} {side : Side}

theorem next_of_malformed {assembler : Assembler} {limit : Nat} {fault : FrameFault}
    (h : Frame.cut assembler.buffer limit = .error fault) (readSize : Nat) (link : Link)
    (side : Side) :
    assembler.next limit readSize link side = ((assembler, link), .error (.frame fault)) := by
  unfold next take
  rw [h]

/-- **What a call comes to** at an end that is open. -/
theorem draws (assembler : Assembler) (limit readSize : Nat) (h : link.Receptive side) :
    let called := assembler.next limit readSize link side
    called.1.2.Receptive side ∧ called.1.2.isClosed side.other = link.isClosed side.other ∧
      Draws limit (link.isClosed side.other) assembler.buffer (link.ends.get side).pending
        called.1.1.buffer (called.1.2.ends.get side).pending called.2 := by
  unfold next take
  rcases hcut : Frame.cut assembler.buffer limit with fault | _ | ⟨frame, rest⟩
  · exact ⟨h, rfl, Draws.malformed_there hcut⟩
  · simp only
    rcases h.read readSize with ⟨after, chunk, hread, hchunk, hafter, hfar⟩ | ⟨hread, hdry⟩
    · have hpending := Link.pending_read hread
      rw [hread]
      simp only [feed]
      rcases hcut' : Frame.cut (assembler.buffer ++ chunk) limit with fault | _ | ⟨frame, rest⟩
      · exact ⟨hafter, hfar, .malformed hpending hcut'⟩
      · exact ⟨hafter, hfar, .unfinished hpending hcut' fun hnone => absurd hnone hchunk⟩
      · exact ⟨hafter, hfar, .frame ⟨_, frame, Frame.whole_of_cut hcut'⟩ hpending
          (Frame.append_of_cut hcut').symm⟩
    · rw [hread]
      by_cases hfar : link.isClosed side.other = true
      · rw [if_pos hfar]
        refine ⟨h, rfl, ?_⟩
        rw [hdry]
        exact .ended hfar rfl hcut
      · rw [if_neg hfar]
        refine ⟨h, rfl, ?_⟩
        rw [hdry]
        exact Draws.dry hcut
  · exact ⟨h, rfl, Draws.frame_there hcut⟩

end Assembler

end StreamMux
