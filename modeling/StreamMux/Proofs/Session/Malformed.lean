import StreamMux.Proofs.Session.Severing

/-!
# Turns that end the loop for what came in

* `Mux.malformed?` — what the next turn of the loop finds wrong with what came in;
* `Mux.malformed?_iff` — the turn ends the loop for that, and for nothing else that came in;
* `Mux.severs_stop` — where the connection is still there, that severs every current stream.
-/

namespace StreamMux

namespace Mux

variable {m : Mux}

/-- What the next turn of the loop finds wrong with what came in; it ends the loop. -/
def malformed? (m : Mux) : Option FrameFault :=
  match m.loop, Frame.cut m.assembler.buffer m.settings.frameLimit with
  | .fed, .error fault => some fault
  | .ready, .error fault => if m.isClosed then none else some fault
  | _, _ => none

theorem cut_of_malformed? {fault : FrameFault} (h : m.malformed? = some fault) :
    Frame.cut m.assembler.buffer m.settings.frameLimit = .error fault := by
  unfold malformed? at h
  split at h
  · rename_i hcut
    rw [hcut, Option.some.inj h]
  · rename_i hcut
    split at h
    · cases h
    · rw [hcut, Option.some.inj h]
  · cases h

/-- What the loop writes into the journal when it stops for a fault. -/
def epitaph (m : Mux) (fault : Fault) : Note :=
  if m.isClosed then .loopStoppedAfterClose fault
  else match fault with
    | .frame _ => .malformed fault
    | _ => .transportFailed fault

theorem notes_shut (m : Mux) : m.notes <+: m.shut.1.notes := by
  have hnoted : m.notes <+: (if m.link.isClosed m.side then m
      else { m with link := m.link.close m.side }.note (.linkClosed m.side)).notes := by
    split
    · exact List.prefix_refl _
    · exact List.prefix_append ..
  unfold shut
  simp only
  split <;> exact hnoted

theorem notes_tearDown (m : Mux) (cause : Cause) : m.notes <+: (m.tearDown cause).notes := by
  unfold tearDown
  split
  · exact List.prefix_refl _
  · have hshut := notes_shut ({ m with tornDown := true }.note (.tearingDown cause))
    have hbefore := (List.prefix_append m.notes [.tearingDown cause]).trans hshut
    simp only
    generalize shut _ = result at hbefore ⊢
    obtain ⟨after, fault | ⟨⟩⟩ := result
    · exact (hbefore.trans (List.prefix_append ..)).trans (List.prefix_append ..)
    · exact hbefore.trans (List.prefix_append ..)

theorem notes_stop (m : Mux) (fault : Fault) :
    m.notes ++ [m.epitaph fault] <+: (m.stop (some fault)).notes := by
  unfold stop epitaph
  simp only
  by_cases hclosed : m.isClosed = true
  · rw [if_pos hclosed, if_pos hclosed]
    exact List.prefix_append ..
  · rw [if_neg hclosed, if_neg hclosed]
    exact (notes_tearDown (m.note _) _).trans (List.prefix_append ..)

/-- Turns that end the loop for different faults differ in the journal. -/
theorem epitaph_of_stop {m' : Mux} {fault fault' : Fault} (hnotes : m'.notes = m.notes)
    (h : m'.stop (some fault') = m.stop (some fault)) : m'.epitaph fault' = m.epitaph fault := by
  have hfirst := notes_stop m fault
  have hsecond := notes_stop m' fault'
  rw [h, hnotes] at hsecond
  have heq := List.prefix_of_prefix_length_le hsecond hfirst (by simp)
  simpa using heq

theorem loop_stop (m : Mux) (fault : Option Fault) : (m.stop fault).loop = .ended := rfl

theorem cut_of_proceed {fault : FrameFault} {next : LoopState} (going : next ≠ .ended)
    (h : m.proceed next = m.stop (some (.frame fault))) :
    Frame.cut m.assembler.buffer m.settings.frameLimit = .error fault := by
  unfold proceed Assembler.take at h
  rcases hcut : Frame.cut m.assembler.buffer m.settings.frameLimit with other | _ | ⟨frame, rest⟩
  · rw [hcut] at h
    have heq := epitaph_of_stop rfl h
    unfold epitaph at heq
    split at heq <;> cases heq <;> rfl
  · rw [hcut] at h
    have hloop := loop_stop m (some (.frame fault))
    rw [← h] at hloop
    exact absurd hloop going
  · rw [hcut] at h
    obtain ⟨out, l, -, hleads⟩ := receives { m with assembler := ⟨rest⟩, loop := .ready } frame
    have hloop := loop_stop m (some (.frame fault))
    rw [← h] at hloop
    cases hloop.symm.trans hleads.passes.loop

/-- A turn that waits for the link ends for nothing that came in. -/
theorem turn_waiting_ne (hloop : m.loop = .waiting) (fault : FrameFault) :
    m.turn ≠ some (m.stop (some (.frame fault))) := by
  intro h
  have hended := loop_stop m (some (.frame fault))
  unfold turn at h
  rw [hloop] at h
  rcases m.poll_cases with
    hnone | ⟨conditions, -, heq | ⟨other, heq⟩⟩ | ⟨link, chunk, -, heq⟩
  · generalize m.poll = polled at hnone h
    obtain ⟨after, result⟩ := polled
    cases hnone
    cases h
  · rw [heq] at h
    rw [← Option.some.inj h] at hended
    cases hended
  · rw [heq] at h
    have hstop : { m with conditions }.stop (some (.link other)) = m.stop (some (.frame fault)) :=
      Option.some.inj h
    have hnotes : { m with conditions }.notes = m.notes := rfl
    have hclosed : { m with conditions }.isClosed = m.isClosed := rfl
    have hepitaph := epitaph_of_stop hnotes hstop
    simp only [epitaph, hclosed] at hepitaph
    split at hepitaph <;> cases hepitaph
  · rw [heq] at h
    rw [← Option.some.inj h] at hended
    cases hended

theorem stop_none_ne (hclosed : m.isClosed = true) (fault : FrameFault) :
    m.stop none ≠ m.stop (some (.frame fault)) := by
  intro h
  have hnotes := notes_stop m (.frame fault)
  rw [← h] at hnotes
  have hlast : m.notes ++ [m.epitaph (.frame fault)] = m.notes ++ [.loopStopped] :=
    hnotes.eq_of_length (by simp [stop, note])
  simp [epitaph, hclosed] at hlast

theorem turn_of_malformed? {fault : FrameFault} (h : m.malformed? = some fault) :
    m.turn = some (m.stop (some (.frame fault))) := by
  have hcut := cut_of_malformed? h
  have hproceed : ∀ next, m.proceed next = m.stop (some (.frame fault)) := fun next => by
    simp only [proceed, Assembler.take, hcut]
  unfold malformed? at h
  unfold turn
  split at h
  · rename_i hloop _
    simp only [hloop, hproceed]
  · rename_i hloop _
    split at h
    · cases h
    · rename_i hclosed
      simp only [hloop, hproceed, if_neg hclosed]
  · cases h

/-- The next turn ends the loop for what came in exactly if there is something wrong with it. -/
theorem malformed?_iff {fault : FrameFault} :
    m.malformed? = some fault ↔ m.turn = some (m.stop (some (.frame fault))) := by
  refine ⟨turn_of_malformed?, fun h => ?_⟩
  cases hloop : m.loop with
  | waiting => exact absurd h (turn_waiting_ne hloop fault)
  | ended =>
    simp only [turn, hloop] at h
    cases h
  | fed =>
    simp only [turn, hloop] at h
    have hcut := cut_of_proceed (by simp) (Option.some.inj h)
    simp only [malformed?, hloop, hcut]
  | ready =>
    simp only [turn, hloop] at h
    by_cases hclosed : m.isClosed = true
    · rw [if_pos hclosed] at h
      exact absurd (Option.some.inj h) (stop_none_ne hclosed fault)
    · rw [if_neg hclosed] at h
      have hcut := cut_of_proceed (by simp) (Option.some.inj h)
      simp only [malformed?, hloop, hcut, if_neg hclosed]

/-- Where the connection is still there, that severs every current stream. -/
theorem severs_stop (up : m.isClosed = false) (fault : FrameFault) :
    m.ledger.Severs (m.stop (some (.frame fault))).ledger := by
  have htorn : (m.note (.malformed (.frame fault))).tornDown = false :=
    (Bool.or_eq_false_iff.mp up).1
  have hledger : (m.stop (some (.frame fault))).ledger =
      ((m.note (.malformed (.frame fault))).tearDown (.readFailed (.frame fault))).ledger := by
    simp only [stop, up, Bool.false_eq_true, if_false]
    exact ledger_note _ _ rfl
  rw [hledger, ledger_tearDown htorn, ledger_note m _ rfl]
  exact m.ledger.severs_tear

end Mux

end StreamMux
