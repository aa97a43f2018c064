import StreamMux.Proofs.Session.Receiving

/-!
# When the link takes what is written

Users and frames of the peer tear a connection down in one way only: something is to be sent, and
the link refuses it.  `Mux.Willing` says that it would not.

* `Mux.Willing.send` — then sending tears nothing down, and neither does any operation that sends;
* `Mux.Willing.receive` — nor does a frame of the peer.
-/

namespace StreamMux

theorem Link.write_of_none {link : Link} {side : Side} (h : link.writeFault? side = none)
    (chunk : Bytes) : ∃ after, link.write side chunk = .ok after := by
  unfold write
  rw [h]
  simp only
  split <;> exact ⟨_, rfl⟩

namespace Mux

variable {m m' m'' : Mux}

/-- Unless the connection is gone, the link takes whatever is written next. -/
def Willing (m : Mux) : Prop :=
  m.isClosed = false → m.conditions.failWrite = none ∧ m.link.writeFault? m.side = none

/-- Two sessions that stand alike with the link. -/
structure Beside (m m' : Mux) : Prop where
  side : m'.side = m.side
  torn : m'.tornDown = m.tornDown
  link : m'.link = m.link
  failWrite : m'.conditions.failWrite = m.conditions.failWrite

namespace Beside

theorem refl (m : Mux) : m.Beside m := ⟨rfl, rfl, rfl, rfl⟩

theorem trans (h : m.Beside m') (h' : m'.Beside m'') : m.Beside m'' :=
  ⟨h'.side.trans h.side, h'.torn.trans h.torn, h'.link.trans h.link,
    h'.failWrite.trans h.failWrite⟩

theorem willing (h : m.Beside m') (willing : m.Willing) : m'.Willing := by
  intro hup
  rw [isClosed, h.side, h.torn, h.link] at hup
  rw [h.side, h.link, h.failWrite]
  exact willing hup

theorem note (m : Mux) (entry : Note) : m.Beside (m.note entry) := ⟨rfl, rfl, rfl, rfl⟩

theorem count (m : Mux) (f : Counters → Counters) : m.Beside (m.count f) := ⟨rfl, rfl, rfl, rfl⟩

theorem ended (m : Mux) (serial : Nat) (ending : Ending) : m.Beside (m.ended serial ending) := by
  cases ending <;> exact ⟨rfl, rfl, rfl, rfl⟩

theorem bind (m : Mux) (id : UInt64) (announced : Bool) : m.Beside (m.bind id announced).1 := by
  unfold Mux.bind
  split
  · exact .refl m
  · split
    · exact .refl m
    · split
      · exact .refl m
      · split <;> exact ⟨rfl, rfl, rfl, rfl⟩

theorem drop (m : Mux) (place : Nat) : m.Beside (m.drop place) := by
  unfold Mux.drop forget
  simp only
  repeat' split
  all_goals exact ⟨rfl, rfl, rfl, rfl⟩

theorem callHandler (m : Mux) (id : UInt64) (serial : Nat) :
    m.Beside (m.callHandler id serial).1 := by
  by_cases hpending : id ∈ m.registry.pending
  · rcases hstart : m.conditions.failStart with _ | text
    · rw [callHandler_started hpending hstart]
      exact ⟨rfl, rfl, rfl, rfl⟩
    · rw [callHandler_unstarted hpending hstart]
      have haccepted : m.Beside { m.accepted id serial with
          conditions := { m.conditions with failStart := none } } := ⟨rfl, rfl, rfl, rfl⟩
      exact haccepted.trans (.drop ..)
  · rw [callHandler_of_not_mem hpending]
    exact .refl m

end Beside

/-! ### Sending -/

namespace Willing

theorem send (h : m.Willing) (frame : Frame) : (m.send frame).1.tornDown = m.tornDown := by
  unfold Mux.send
  split
  · rfl
  · rename_i bytes _
    split
    · rfl
    · rename_i hclosed
      obtain ⟨hfail, hlink⟩ := h (by simpa using hclosed)
      obtain ⟨link, hwrite⟩ := Link.write_of_none hlink bytes
      simp only [transmit, hfail, hwrite]
      rfl

theorem terminate (h : m.Willing) (serial : Nat) (ending : Ending) :
    (m.terminate serial ending).1.tornDown = m.tornDown := by
  by_cases hover : (m.registry.stream serial).isOver = true
  · unfold Mux.terminate
    simp only
    split
    · rfl
    · rw [Stream.terminate_of_isOver hover]
  · rw [terminate_of_live (by simpa using hover)]
    have hended := Beside.ended m serial ending
    exact ((hended.willing h).send _).trans hended.torn

/-! ### Frames of the peer -/

theorem turnAway (h : m.Willing) (id : UInt64) (kind : Kind) (refusal : Refusal) :
    (m.turnAway id kind refusal).tornDown = m.tornDown := by
  unfold Mux.turnAway
  cases refusal with
  | crowded =>
    have hsend := ((Beside.note m (.refused id .crowded)).willing h).send
      (.ofKind id .resetAcceptor [])
    simp only
    generalize Mux.send _ _ = result at hsend ⊢
    obtain ⟨after, fault | size⟩ := result <;> exact hsend
  | closed => rfl
  | ownNumber => rfl

theorem cutShort (h : m.Willing) (serial : Nat) : (m.cutShort serial).tornDown = m.tornDown := by
  have hends := h.terminate serial .reset
  unfold Mux.cutShort
  generalize m.terminate serial .reset = result at hends ⊢
  obtain ⟨after, fault | ⟨⟩⟩ := result <;> exact hends

theorem enqueue (h : m.Willing) (serial : Nat) (payload : Bytes) :
    (m.enqueue serial payload).tornDown = m.tornDown := by
  unfold Mux.enqueue
  split
  · rfl
  · simp only
    split
    · rfl
    · exact ((Beside.note m _).willing h).cutShort serial
    · rfl

/-- An announcement whose handler cannot be started sends, but then takes no payload. -/
theorem announce_enqueue (h : m.Willing) (id : UInt64) (serial : Nat) (payload : Bytes) :
    ((m.announce id serial).enqueue serial payload).tornDown = m.tornDown := by
  have hcall := Beside.callHandler m id serial
  by_cases hstuck : id ∈ m.registry.pending ∧ m.conditions.failStart ≠ none
  · obtain ⟨hpending, hfails⟩ := hstuck
    obtain ⟨text, hstart⟩ := Option.ne_none_iff_exists'.mp hfails
    obtain ⟨out, l, hcutting, hleads⟩ := m.announce_unstarted hpending hstart serial
    have hidle := enqueue_leads_of_isOver (hleads.ledger ▸ hcutting.isOver) payload
    refine (congrArg Ledger.tornDown hidle.ledger :).trans ?_
    rw [callHandler_unstarted hpending hstart] at hcall
    change (m.announce id serial).tornDown = m.tornDown
    rw [Mux.announce, callHandler_unstarted hpending hstart]
    have hnoted := hcall.trans (.note _ (.notDispatched id (.system text)))
    exact ((hnoted.willing h).cutShort serial).trans hnoted.torn
  · have hquiet : m.Beside (m.announce id serial) := by
      by_cases hpending : id ∈ m.registry.pending
      · have hstart : m.conditions.failStart = none := by
          by_contra hfails
          exact hstuck ⟨hpending, hfails⟩
        rw [callHandler_started hpending hstart] at hcall
        rw [Mux.announce, callHandler_started hpending hstart]
        exact hcall
      · rw [Mux.announce, callHandler_of_not_mem hpending]
        exact (Beside.note m _).trans (.count ..)
    exact ((hquiet.willing h).enqueue ..).trans hquiet.torn

theorem receiveKind (h : m.Willing) (kind : Kind) (id : UInt64) (payload : Bytes) :
    (m.receiveKind kind id payload).tornDown = m.tornDown := by
  have hmessage : ∀ {kind : Kind}, kind.isMessage = true →
      (m.receiveKind kind id payload).tornDown = m.tornDown := by
    intro kind message
    have hbind := Beside.bind m id false
    rcases hbound : m.bind id false with ⟨after, refusal | ⟨serial, isNew⟩⟩
    · rw [hbound] at hbind
      rw [receiveKind_refused message hbound]
      exact ((hbind.willing h).turnAway ..).trans hbind.torn
    · rw [hbound] at hbind
      rw [receiveKind_bound message hbound]
      have hnoted : after.Beside (if isNew = true then after.note (.early id) else after) := by
        split
        · exact .note ..
        · exact .refl _
      exact (((hbind.trans hnoted).willing h).enqueue ..).trans (hbind.trans hnoted).torn
  have hending : ∀ ending : Ending, (m.endByPeer id ending).tornDown = m.tornDown := by
    intro ending
    unfold endByPeer
    split
    · rfl
    · split
      · rfl
      · cases ending <;> rfl
  cases kind with
  | newStream =>
    unfold Mux.receiveKind
    have hbind := Beside.bind m id true
    simp only
    generalize m.bind id true = bound at hbind ⊢
    obtain ⟨after, refusal | ⟨serial, isNew⟩⟩ := bound
    · exact ((hbind.willing h).turnAway ..).trans hbind.torn
    · exact ((hbind.willing h).announce_enqueue ..).trans hbind.torn
  | messageAcceptor => exact hmessage rfl
  | messageOpener => exact hmessage rfl
  | closeAcceptor => exact hending .closed
  | closeOpener => exact hending .closed
  | resetAcceptor => exact hending .reset
  | resetOpener => exact hending .reset

/-- As long as the link takes what is written, no frame of the peer tears the connection down. -/
theorem receive (h : m.Willing) (frame : Frame) : (m.receive frame).tornDown = m.tornDown := by
  unfold Mux.receive
  rcases frame.kind? with _ | kind
  · rfl
  · exact ((Beside.note m _).willing h).receiveKind ..

end Willing

end Mux

end StreamMux
