import StreamMux.Proofs.Session.Receiving

/-!
# The outcomes of a turn of the loop

`Mux.Turns` lists what one turn of the loop comes to: only the loop moves on, a chunk is taken off
the link, a frame is taken off what came in and applied, or the loop ends.  The loop ends because
the connection is gone, or tears the connection down (`Mux.stops`).
-/

namespace StreamMux

namespace Mux

variable {m m' : Mux}

/-! ### The end of the loop -/

theorem Passes.with_loop {out : List Frame} (h : m.Passes out m') (loop : LoopState) :
    { m with loop }.Passes out { m' with loop } :=
  { h with loop := rfl }

/-- When the loop ends, the connection is gone or is torn down then. -/
theorem stops (m : Mux) (fault : Option Fault) (h : fault = none → m.isClosed = true) :
    { m with loop := .ended }.Passes [] (m.stop fault) ∧
      ((m.isClosed = true ∧ (m.stop fault).ledger = m.ledger) ∨
        (m.isClosed = false ∧ (m.stop fault).ledger = m.ledger.tear)) := by
  have hend : ∀ {before : Mux}, m.Passes [] before →
      { m with loop := .ended }.Passes [] ({ before with loop := .ended }.note .loopStopped) :=
    fun hbefore => (hbefore.with_loop .ended).trans_nil (.note ..)
  have hledger : ∀ before : Mux,
      ({ before with loop := .ended }.note .loopStopped).ledger = before.ledger :=
    fun before => ledger_note _ _ rfl
  unfold stop
  rcases fault with _ | fault
  · exact ⟨hend (.refl m), Or.inl ⟨h rfl, hledger m⟩⟩
  · by_cases hclosed : m.isClosed = true
    · simp only [if_pos hclosed]
      exact ⟨hend (.note ..), Or.inl ⟨hclosed, (hledger _).trans (ledger_note m _ rfl)⟩⟩
    · have hup : m.isClosed = false := by simpa using hclosed
      simp only [if_neg hclosed]
      have htear : ∀ entry : Note, entry.overflow? = none →
          { m with loop := .ended }.Passes []
            ({ (m.note entry).tearDown (.readFailed fault) with loop := .ended }.note
              .loopStopped) ∧
          ({ (m.note entry).tearDown (.readFailed fault) with loop := .ended }.note
            .loopStopped).ledger = m.ledger.tear := fun entry hentry =>
        ⟨hend ((Passes.note ..).trans_nil (passes_tearDown ..)), by
          rw [hledger, ledger_tearDown (m := m.note entry) (up_of_isClosed_eq_false hup),
            ledger_note m _ hentry]⟩
      clear h
      cases fault <;> exact ⟨(htear _ rfl).1, Or.inr ⟨hup, (htear _ rfl).2⟩⟩

/-- What a look at the link comes to: nothing, a wait that ran out, a failure, or a chunk. -/
theorem poll_cases (m : Mux) :
    m.poll.2 = none ∨
    (∃ conditions, (m.conditions = {} → conditions = {}) ∧
      (m.poll = ({ m with conditions }, some (.ok none)) ∨
        ∃ fault, m.poll = ({ m with conditions }, some (.error fault)))) ∨
    ∃ link chunk, m.link.read m.side m.settings.readSize = (link, .ok (some chunk)) ∧
      m.poll = ({ m with link }, some (.ok (some chunk))) := by
  unfold poll
  split
  · exact Or.inl rfl
  · split
    · rename_i timeouts _ htimeouts
      refine Or.inr (Or.inl ⟨_, ?_, Or.inl rfl⟩)
      intro hcalm
      rw [hcalm] at htimeouts
      cases htimeouts
    · rename_i fault _ hfail
      refine Or.inr (Or.inl ⟨_, ?_, Or.inr ⟨fault, rfl⟩⟩)
      intro hcalm
      rw [hcalm] at hfail
      cases hfail
    · rcases hread : m.link.read m.side m.settings.readSize with ⟨link, fault | _ | chunk⟩
      · have hlink := Link.read_eq hread (by simp)
        subst hlink
        exact Or.inr (Or.inl ⟨m.conditions, id, Or.inr ⟨fault, rfl⟩⟩)
      · exact Or.inl rfl
      · exact Or.inr (Or.inr ⟨link, chunk, rfl, rfl⟩)

/-! ### Turns -/

inductive Turns (m : Mux) : Mux → Prop where
  | idle {loop : LoopState} {conditions : Conditions} (going : loop ≠ .ended)
      (calm : m.conditions = {} → conditions = {}) : Turns m { m with loop, conditions }
  | fed {link : Link} {chunk : Bytes}
      (read : m.link.read m.side m.settings.readSize = (link, .ok (some chunk))) :
      Turns m { m with link, assembler := m.assembler.feed chunk, loop := .fed }
  | frame {frame : Frame} {rest : Bytes}
      (cut : Frame.cut m.assembler.buffer m.settings.frameLimit = .ok (some (frame, rest))) :
      Turns m ({ m with assembler := ⟨rest⟩, loop := .ready }.receive frame)
  | stopped {m' : Mux} (passes : { m with loop := .ended }.Passes [] m')
      (ledger : (m.isClosed = true ∧ m'.ledger = m.ledger) ∨
        (m.isClosed = false ∧ m'.ledger = m.ledger.tear)) : Turns m m'

theorem turns_proceed (m : Mux) {next : LoopState} (going : next ≠ .ended) :
    m.Turns (m.proceed next) := by
  unfold proceed Assembler.take
  rcases hcut : Frame.cut m.assembler.buffer m.settings.frameLimit with fault | _ | ⟨frame, rest⟩
  · obtain ⟨hpasses, hledger⟩ := stops m (some (.frame fault)) (by simp)
    exact .stopped hpasses hledger
  · exact .idle going id
  · exact .frame hcut

theorem turns (h : m.turn = some m') : m.Turns m' := by
  unfold turn at h
  split at h
  · cases h
  · cases h
    split
    · rename_i hclosed
      obtain ⟨hpasses, hledger⟩ := stops m none fun _ => hclosed
      exact .stopped hpasses hledger
    · exact turns_proceed m (by simp)
  · rcases m.poll_cases with
      hnone | ⟨conditions, hcalm, heq | ⟨fault, heq⟩⟩ | ⟨link, chunk, hread, heq⟩
    · split at h
      · cases h
      all_goals simp_all
    · rw [heq] at h
      cases h
      exact .idle (by simp) hcalm
    · rw [heq] at h
      cases h
      obtain ⟨hpasses, hledger⟩ := stops { m with conditions } (some (.link fault)) (by simp)
      exact .stopped (.nil_trans (passes_conditions { m with loop := .ended } hcalm) hpasses)
        hledger
    · rw [heq] at h
      cases h
      exact .fed hread
  · cases h
    exact turns_proceed m (by simp)

end Mux

end StreamMux
