import StreamMux.Proofs.Session.Run

/-!
# The end of the loop and teardown

The loop ends when it finds the connection gone, or when a fault makes it tear the connection down.
The connection also counts as gone when the link's owner closed it under the session, which tears
nothing down; and from then on neither the loop nor any operation but `Mux.Op.close` ever does.

* `Mux.gone_of_ended` — when the loop has ended, the connection is gone;
* `Mux.Finished` — all that is left of a session that was torn down;
* `Mux.finished_iff_not_closedBehind` — a session whose loop has ended is finished in every run but
  those in which the link was closed behind its back.
-/

namespace StreamMux.Mux

variable {side : Side} {settings : Settings}

/-- What is left of a session that was torn down. -/
structure Finished (m : Mux) : Prop where
  torn : m.tornDown = true
  size : m.registry.size = 0
  pending : m.registry.pending = []
  /-- Every stream ever created is over. -/
  isOver : ∀ serial < m.registry.streams.length, (m.registry.stream serial).isOver = true
  reads : ∀ place, (m.perform (.read place)).2 ≠ .reading .blocked

/-- The link was closed under the session while it was not torn down, and the session was not closed
since. -/
def ClosedBehind (side : Side) (settings : Settings) (ops : List Op) : Prop :=
  ∃ before after, ops = before ++ .closeLink :: after ∧
    (run side settings before).tornDown = false ∧ Op.close ∉ after

/-! ### Teardown finishes a session -/

theorem read_ne_blocked {m : Mux} {serial : Nat} (h : (m.ledger.stream serial).isOver = true) :
    (m.read serial).2 ≠ .blocked := by
  intro hblocked
  have hreads := reads m serial
  generalize m.read serial = result at hblocked hreads
  cases hreads with
  | chunk front passes ledger => cases hblocked
  | blocked live drained =>
    rw [live] at h
    cases h
  | ended isOver drained verdict passes ledger =>
    rcases verdict with rfl | ⟨fault, rfl⟩ <;> cases hblocked

theorem finished_of_torn {m : Mux} (sound : m.ledger.Sound) (htorn : m.tornDown = true) :
    m.Finished := by
  have hover := sound.isOver_of_torn htorn
  obtain ⟨hentries, hpending⟩ := sound.torn htorn
  refine ⟨htorn, congrArg List.length hentries, hpending, fun serial _ => hover serial, ?_⟩
  intro place hblocked
  simp only [perform] at hblocked
  rcases m.withHandle_cases place fun serial => ((m.read serial).1, .reading (m.read serial).2) with
    ⟨handle, -, -, heq⟩ | heq
  · rw [heq] at hblocked
    exact read_ne_blocked (hover handle.serial) (Answer.reading.inj hblocked)
  · rw [heq] at hblocked
    cases hblocked

/-! ### The connection is gone when the loop has ended -/

theorem gone_of_ended {ops : List Op} (h : (run side settings ops).loop = .ended) :
    (run side settings ops).isClosed = true := by
  induction ops using List.reverseRecOn with
  | nil => cases h
  | append_singleton ops op ih =>
    have hstep := step (sound_run side settings ops) op
    rw [run_concat] at h ⊢
    rcases hstep.ended h with hbefore | hgone
    · exact hstep.keeps (ih hbefore)
    · exact hgone

/-! ### Links closed behind a session -/

theorem tornDown_close (m : Mux) : (m.perform .close).1.tornDown = true := by
  by_cases htorn : m.tornDown = true
  · rw [perform, tearDown_of_torn htorn, htorn]
  · exact congrArg Ledger.tornDown (ledger_tearDown (by simpa using htorn) .closedHere)

theorem tornDown_perform {m : Mux} (sound : m.ledger.Sound) (htorn : m.tornDown = true) (op : Op) :
    (m.perform op).1.tornDown = true := by
  by_cases hop : op = .close
  · rw [hop]
    exact tornDown_close m
  · rw [(step sound op).heeds (by rw [isClosed, htorn, Bool.true_or]) hop, htorn]

/-- The own end of a link is closed by teardown or by its owner. -/
theorem closedBehind_of_isClosed {ops : List Op}
    (hclosed : (run side settings ops).link.isClosed side = true)
    (hup : (run side settings ops).tornDown = false) : ClosedBehind side settings ops := by
  induction ops using List.reverseRecOn with
  | nil => cases side <;> cases hclosed
  | append_singleton ops op ih =>
    have hsound := sound_run side settings ops
    rw [run_concat] at hclosed hup
    have hbefore : (run side settings ops).tornDown = false := by
      by_contra htorn
      rw [tornDown_perform hsound (by simpa using htorn)] at hup
      cases hup
    have hstill := (step hsound op).closed
    rw [side_run] at hstill
    rcases hstill hclosed with hearlier | htorn | rfl
    · obtain ⟨before, after, rfl, hopen, hafter⟩ := ih hearlier hbefore
      refine ⟨before, after ++ [op], by simp, hopen, ?_⟩
      rw [List.mem_append, List.mem_singleton]
      rintro (hmem | rfl)
      · exact hafter hmem
      · rw [tornDown_close] at hup
        cases hup
    · rw [hup] at htorn
      cases htorn
    · exact ⟨ops, [], rfl, hbefore, by simp⟩

/-- Once the link is closed behind a session, only closing the session tears it down. -/
theorem up_of_closedBehind {ops : List Op} (h : ClosedBehind side settings ops) :
    (run side settings ops).tornDown = false := by
  obtain ⟨before, after, rfl, hopen, hafter⟩ := h
  suffices hboth : (run side settings (before ++ .closeLink :: after)).tornDown = false ∧
      (run side settings (before ++ .closeLink :: after)).isClosed = true from hboth.1
  induction after using List.reverseRecOn with
  | nil =>
    rw [run_concat]
    have hledger := (run side settings before).shut_keeps.2.1
    have htorn := congrArg Ledger.tornDown hledger
    have hlink := (run side settings before).shut_keeps.1
    have hside : (run side settings before).shut.1.side = (run side settings before).side :=
      congrArg Ledger.side hledger
    refine ⟨htorn.trans hopen, ?_⟩
    change (run side settings before).shut.1.isClosed = true
    rw [isClosed, hlink, hside, Link.isClosed_close_self, Bool.or_true]
  | append_singleton after op ih =>
    rw [List.mem_append, not_or, List.mem_singleton] at hafter
    obtain ⟨hup, hgone⟩ := ih hafter.1
    have hstep := step (sound_run side settings (before ++ .closeLink :: after)) op
    rw [show before ++ .closeLink :: (after ++ [op]) = (before ++ .closeLink :: after) ++ [op] by
      simp, run_concat]
    exact ⟨(hstep.heeds hgone (Ne.symm hafter.2)).trans hup, hstep.keeps hgone⟩

/-- **The loop ends with teardown, unless the link was closed behind the session.**  In every run in
which the loop has ended, the session is finished exactly if the link's owner did not close the link
while the session was not torn down, or the session was closed after that. -/
theorem finished_iff_not_closedBehind {ops : List Op}
    (h : (run side settings ops).loop = .ended) :
    (run side settings ops).Finished ↔ ¬ ClosedBehind side settings ops := by
  constructor
  · intro hfinished hbehind
    have htorn := hfinished.torn
    rw [up_of_closedBehind hbehind] at htorn
    cases htorn
  · intro hbehind
    apply finished_of_torn (sound_run side settings ops)
    have hgone := gone_of_ended h
    rw [isClosed, side_run, Bool.or_eq_true] at hgone
    rcases hgone with htorn | hclosed
    · exact htorn
    · by_contra hup
      exact hbehind (closedBehind_of_isClosed hclosed (by simpa using hup))

/-- A stream is open, the owner closes the link, and the loop ends: the stream stays open. -/
theorem not_finished_behind_open_stream :
    (run .dialer .usual [.openStream none, .closeLink, .turn]).loop = .ended ∧
      (run .dialer .usual [.openStream none, .closeLink, .turn]).registry.size = 1 ∧
      ¬ (run .dialer .usual [.openStream none, .closeLink, .turn]).Finished := by
  have hended : (run .dialer .usual [.openStream none, .closeLink, .turn]).loop = .ended := by
    decide +kernel
  refine ⟨hended, by decide +kernel, ?_⟩
  intro hfinished
  exact (finished_iff_not_closedBehind hended).mp hfinished
    ⟨[.openStream none], [.turn], rfl, by decide +kernel, by simp⟩

end StreamMux.Mux
