import StreamMux.Proofs.Network.Advance

/-!
# Two sessions in step

`Network.Joined` is what holds of two sessions at every moment of a run: each keeps the order, what
one has sent is what the other has applied followed by what is still on its way, and the histories
agree with the record.

* `Network.Joined.expects` — the frame in front of a session is one that it can apply;
* `Network.joined` — every run has such histories;
* `Network.not_unstarted` — handlers fail to start only where they are made to.
-/

namespace StreamMux

namespace Network

/-- A session of a network, its history, and the frames on their way to it. -/
structure Stands (net : Network) (side : Side) (h : History) (flight : List Frame) (m : Mux) :
    Prop where
  mux : net.mux? side = some m
  here : m.side = side
  orderly : m.ledger.Orderly h
  /-- Nobody but the session closes its end of the link. -/
  closed : m.link.isClosed side = true → m.tornDown = true
  carries : Carries m flight

/-- Two sessions, their histories, and the frames on their way to each. -/
structure Joined (settings : Both Settings) (steps : List (Side × Use)) (histories : Both History)
    (flights : Both (List Frame)) : Prop where
  stands : ∀ side, ∃ m,
    Stands (play settings steps).1 side (histories.get side) (flights.get side) m
  passed : ∀ side,
    (histories.get side.other).sent = (histories.get side).got ++ flights.get side
  wrote : ∀ side place,
    (histories.get side).wrote place = written (play settings steps).2 side place
  took : ∀ side place,
    (histories.get side).took place = taken (play settings steps).2 side place
  ended : ∀ side place, (histories.get side).ended place →
    EndedThrough settings steps side place ∨ Unstarted settings steps side place
  /-- As long as no handler is to fail, nothing is. -/
  calm : ∀ {side m}, (play settings steps).1.mux? side = some m →
    (∀ text, (side, .failStart text) ∉ steps) → m.conditions = {}

variable {settings : Both Settings} {steps : List (Side × Use)} {histories : Both History}
  {flights : Both (List Frame)} {side : Side} {m : Mux}

namespace Stands

variable {net : Network} {h : History} {flight : List Frame}

theorem role_iff (hm : Stands net side h flight m) {serial : Nat}
    (hmem : serial ∈ m.ledger.serials) :
    (m.ledger.stream serial).role = .opener ↔ side.owns (m.ledger.stream serial).id = true := by
  have hcensus := hm.orderly.census
  rw [← hm.here, show m.side = m.ledger.side from rfl, ← hcensus.owns_eq]
  exact hcensus.role_iff (hcensus.lt_of_mem hmem)

theorem role_eq_acceptor (hm : Stands net side h flight m) {serial : Nat}
    (hmem : serial ∈ m.ledger.serials)
    (hown : side.other.owns (m.ledger.stream serial).id = true) :
    (m.ledger.stream serial).role = .acceptor := by
  cases hrole : (m.ledger.stream serial).role with
  | acceptor => rfl
  | opener =>
    rw [Side.owns_other, (hm.role_iff hmem).mp hrole] at hown
    cases hown

end Stands

/-! ### The record of one more step -/

theorem written_concat (events : List Event) (event : Event) (side : Side) (place : Nat) :
    written (events ++ [event]) side place =
      written events side place ++ (event.written? side place).toList := by
  cases h : event.written? side place <;> simp [written, h]

theorem taken_concat (events : List Event) (event : Event) (side : Side) (place : Nat) :
    taken (events ++ [event]) side place =
      taken events side place ++ (event.taken? side place).toList := by
  cases h : event.taken? side place <;> simp [taken, h]

/-- What is done at one side writes and reads nothing at the other. -/
theorem Event.quiet_other (event : Event) (h : event.side ≠ side) (place : Nat) :
    event.written? side place = none ∧ event.taken? side place = none := by
  obtain ⟨actor, use, answer⟩ := event
  have hactor : ¬ actor = side := h
  constructor
  · unfold written?
    split
    · rename_i heq
      cases heq
      rw [if_neg fun hboth => hactor hboth.1]
    · rfl
  · unfold taken?
    split
    · rename_i heq
      cases heq
      rw [if_neg fun hboth => hactor hboth.1]
    · rfl

theorem EndsAt.concat {use : Use} {place : Nat} (h : EndsAt m use place)
    (hm : (play settings steps).1.mux? side = some m) :
    EndedThrough settings (steps ++ [(side, use)]) side place ∨
      Unstarted settings (steps ++ [(side, use)]) side place := by
  cases h with
  | through ending given held going =>
    exact Or.inl ⟨steps, ending, [], rfl, m, _, hm, given, held, going⟩
  | unstarted misstarts => exact Or.inr ⟨steps, [], rfl, m, _, hm, rfl, misstarts⟩

/-! ### What a session can expect -/

namespace Joined

variable (j : Joined settings steps histories flights)

include j

theorem sent_of_flight {frame : Frame} (hmem : frame ∈ flights.get side) :
    frame ∈ (histories.get side.other).sent := by
  rw [j.passed side]
  exact List.mem_append_right _ hmem

theorem sent_of_got {frame : Frame} (hmem : frame ∈ (histories.get side).got) :
    frame ∈ (histories.get side.other).sent := by
  rw [j.passed side]
  exact List.mem_append_left _ hmem

theorem fits {frame : Frame} (hmem : frame ∈ flights.get side) : frame.Fits := by
  obtain ⟨n, hn⟩ := j.stands side.other
  exact hn.orderly.mail.fits (j.sent_of_flight hmem)

/-- Whatever comes under a number of this side's own is for a stream that was opened here. -/
theorem mine (hm : Stands (play settings steps).1 side (histories.get side) (flights.get side) m)
    {frame : Frame} (hmem : frame ∈ (histories.get side.other).sent)
    (hown : side.owns frame.id = true) :
    ∃ i ∈ m.ledger.serials, (m.ledger.stream i).id = frame.id := by
  obtain ⟨n, hn⟩ := j.stands side.other
  obtain ⟨k, hk, hid⟩ := hn.orderly.mail.owner frame hmem
  -- the other side accepted that stream, so this side announced it
  have hrole := hn.role_eq_acceptor hk (by rw [hid, Side.other_other]; exact hown)
  obtain ⟨announcement, hgot, heq, -⟩ := hn.orderly.census.accepted hk hrole
  have hsent := j.sent_of_got hgot
  rw [Side.other_other] at hsent
  obtain ⟨i, hi, hsame⟩ := hm.orderly.mail.owner announcement hsent
  exact ⟨i, hi, hsame.trans (heq.trans hid)⟩

/-- The frame in front may follow those applied, and is for a stream that the session can know. -/
theorem expects
    (hm : Stands (play settings steps).1 side (histories.get side) (flights.get side) m) :
    Expects m (histories.get side) (flights.get side) := by
  intro frame others hflight
  obtain ⟨n, hn⟩ := j.stands side.other
  have hsent := j.passed side
  rw [hflight] at hsent
  rw [hm.here]
  refine ⟨?_, fun hown => j.mine hm (hsent ▸ by simp) hown⟩
  have hsequenced := hn.orderly.mail.sequenced
  rw [show n.ledger.side = side.other from hn.here] at hsequenced
  exact hsequenced _ frame others hsent

/-! ### Steps -/

theorem concat (side : Side) (use : Use) :
    ∃ histories' flights', Joined settings (steps ++ [(side, use)]) histories' flights' := by
  obtain ⟨m, hm⟩ := j.stands side
  obtain ⟨n, hn⟩ := j.stands side.other
  have hclosed : m.link.isClosed m.side = true → m.tornDown = true := hm.here.symm ▸ hm.closed
  obtain ⟨h', flight', out, step⟩ :=
    advance hm.orderly hclosed hm.carries (fun _ => j.fits) (j.expects hm) use
  have hplay : play settings (steps ++ [(side, use)]) =
      ((play settings steps).1.put side (m.perform use.op).1,
        (play settings steps).2 ++ [⟨side, use, (m.perform use.op).2⟩]) := by
    rw [play_concat, extend_eq hm.mux]
  have hlink : n.link = m.link := (link_of_mux? hn.mux).trans (link_of_mux? hm.mux).symm
  have hevent := Event.quiet_other ⟨side, use, (m.perform use.op).2⟩ side.ne_other
  refine ⟨histories.set side h',
    (flights.set side flight').set side.other (flights.get side.other ++ out), ?_, ?_, ?_, ?_, ?_,
    ?_⟩
  · -- stands
    rw [hplay]
    refine side.both ⟨_, mux?_put_self .., ?_, ?_, ?_, ?_⟩
      ⟨_, mux?_put_other _ hn.mux, ?_, ?_, ?_, ?_⟩
    · exact step.side.trans hm.here
    · rw [Both.get_set_self]
      exact step.orderly
    · rw [← hm.here]
      exact step.closed
    · rw [Both.get_other_set, Both.get_set_self]
      exact step.carries
    · exact hn.here
    · rw [Both.get_set_other]
      exact hn.orderly
    · intro hshut
      have hfar := step.far_closed
      rw [hm.here] at hfar
      apply hn.closed
      rw [hlink]
      exact hfar ▸ hshut
    · rw [Both.get_set_self]
      exact hn.carries.behind (by rw [hn.here, hm.here]) hlink step.far
  · -- passed
    refine side.both ?_ ?_
    · rw [Both.get_set_other, Both.get_set_self, Both.get_other_set, Both.get_set_self, j.passed]
      exact step.got
    · have hpassed := j.passed side.other
      rw [Side.other_other] at hpassed ⊢
      rw [Both.get_set_self, Both.get_set_other, Both.get_set_self, step.sent, hpassed,
        List.append_assoc]
  · -- wrote
    rw [hplay]
    refine side.both ?_ ?_
    · intro place
      rw [Both.get_set_self, step.wrote, j.wrote, hm.here]
      exact (written_concat ..).symm
    · intro place
      rw [Both.get_set_other, j.wrote, written_concat, (hevent place).1]
      exact (List.append_nil _).symm
  · -- took
    rw [hplay]
    refine side.both ?_ ?_
    · intro place
      rw [Both.get_set_self, step.took, j.took, hm.here]
      exact (taken_concat ..).symm
    · intro place
      rw [Both.get_set_other, j.took, taken_concat, (hevent place).2]
      exact (List.append_nil _).symm
  · -- ended
    have hlater : ∀ {s place}, (histories.get s).ended place →
        EndedThrough settings (steps ++ [(side, use)]) s place ∨
          Unstarted settings (steps ++ [(side, use)]) s place :=
      fun hended => (j.ended _ _ hended).imp (·.concat _) (·.concat _)
    refine side.both ?_ ?_
    · intro place hended
      rw [Both.get_set_self] at hended
      rcases step.ended place hended with hbefore | hends
      · exact hlater hbefore
      · exact hends.concat hm.mux
    · intro place hended
      rw [Both.get_set_other] at hended
      exact hlater hended
  · -- calm
    intro s m' hm' hstarts
    have hbefore : ∀ text, (s, .failStart text) ∉ steps := fun text hmem =>
      hstarts text (List.mem_append_left _ hmem)
    rw [hplay] at hm'
    by_cases hs : s = side
    · subst hs
      cases (mux?_put_self ..).symm.trans hm'
      refine step.calm (fun text heq => ?_) (j.calm hm.mux hbefore)
      exact hstarts text (heq ▸ List.mem_append_right _ (List.mem_singleton_self _))
    · obtain rfl : s = side.other := by cases s <;> cases side <;> first | rfl | exact absurd rfl hs
      have hcalm := j.calm hn.mux hbefore
      cases (mux?_put_other _ hn.mux).symm.trans hm'
      exact hcalm

end Joined

theorem joined_start (settings : Both Settings) : Joined settings [] ⟨{}, {}⟩ ⟨[], []⟩ where
  stands side := by
    refine ⟨_, mux?_start settings side, rfl, ?_, fun hclosed => ?_, ?_⟩
    · cases side <;>
        exact ⟨Ledger.census_start _ _, Ledger.mail_start _ _, Ledger.candid_start _ _⟩
    · cases side <;> cases hclosed
    · cases side <;> rfl
  passed side := by cases side <;> rfl
  wrote side place := by cases side <;> rfl
  took side place := by cases side <;> rfl
  ended side place hended := by cases side <;> exact hended.elim
  calm {side m} hm _ := by
    cases (mux?_start settings side).symm.trans hm
    rfl

/-- **Two sessions stay in step.**  Every run has histories that agree with it. -/
theorem joined (settings : Both Settings) (steps : List (Side × Use)) :
    ∃ histories flights, Joined settings steps histories flights := by
  induction steps using List.reverseRecOn with
  | nil => exact ⟨_, _, joined_start settings⟩
  | append_singleton steps step ih =>
    obtain ⟨histories, flights, j⟩ := ih
    exact j.concat step.1 step.2

theorem not_unstarted (h : ∀ text, (side, .failStart text) ∉ steps) (place : Nat) :
    ¬ Unstarted settings steps side place := by
  rintro ⟨before, after, rfl, m, serial, hm, -, hfails, -⟩
  obtain ⟨histories, flights, j⟩ := joined settings before
  rw [j.calm hm fun text hmem => h text (List.mem_append_left _ hmem)] at hfails
  cases hfails

end Network

end StreamMux
