import StreamMux.Proofs.Session.Run

/-!
# What a session does apart from its intake

A session takes bytes in at one place: they come in on its own end of the link, wait in the
assembler, and the loop works them off.  Nothing else that a session does looks at them.

* `Inlet` — the bytes on their way to a session, those in its assembler, and where its loop stands;
* `Mux.withInlet` — a session with another inlet;
* `Mux.receive_withInlet`, `Mux.stop_withInlet` — a frame, and the end of the loop, do the same to a
  session with another inlet, and leave that as it is.
-/

namespace StreamMux

/-- The bytes on their way to a session and in its assembler, and where its loop stands. -/
structure Inlet where
  loop : LoopState := .ready
  assembler : Assembler := {}
  inbox : List Bytes := []
  remainder : Bytes := []

namespace Inlet

/-- The bytes on their way to the session, oldest first. -/
def pending (inlet : Inlet) : Bytes :=
  inlet.remainder ++ inlet.inbox.flatten

/-- A chunk comes in; an empty one is nothing. -/
def push (inlet : Inlet) (chunk : Bytes) : Inlet :=
  { inlet with inbox := if chunk.isEmpty then inlet.inbox else inlet.inbox ++ [chunk] }

theorem pending_push (inlet : Inlet) (chunk : Bytes) :
    (inlet.push chunk).pending = inlet.pending ++ chunk := by
  simp only [pending, push]
  split
  · rename_i hempty
    rw [List.isEmpty_iff.mp hempty, List.append_nil]
  · simp

theorem full_push {inlet : Inlet} (full : ∀ chunk ∈ inlet.inbox, chunk ≠ []) (chunk : Bytes) :
    ∀ other ∈ (inlet.push chunk).inbox, other ≠ [] := by
  simp only [push]
  split
  · exact full
  · rename_i hchunk
    intro other hother
    rcases List.mem_append.mp hother with hold | hnew
    · exact full other hold
    · rw [List.mem_singleton.mp hnew]
      exact fun hnil => hchunk (List.isEmpty_iff.mpr hnil)

end Inlet

/-! ### The link -/

namespace Link

/-- The link with other bytes on their way to an end. -/
def withIncoming (link : Link) (side : Side) (inbox : List Bytes) (remainder : Bytes) : Link :=
  { link with ends := link.ends.set side { link.ends.get side with inbox, remainder } }

variable (link : Link) (side : Side) (inbox : List Bytes) (remainder : Bytes)

@[simp] theorem isClosed_withIncoming (other : Side) :
    (link.withIncoming side inbox remainder).isClosed other = link.isClosed other := by
  cases side <;> cases other <;> rfl

theorem get_withIncoming :
    (link.withIncoming side inbox remainder).ends.get side =
      { link.ends.get side with inbox, remainder } := by
  cases side <;> rfl

theorem write_withIncoming (chunk : Bytes) :
    (link.withIncoming side inbox remainder).write side chunk =
      (link.write side chunk).map (·.withIncoming side inbox remainder) := by
  have hfault : (link.withIncoming side inbox remainder).writeFault? side =
      link.writeFault? side := by
    simp only [writeFault?, isClosed_withIncoming]
    rfl
  unfold write
  rw [hfault]
  split
  · rfl
  · split
    · rfl
    · cases side <;> rfl

/-- What the other end writes comes in, unless it is refused; an empty chunk is not sent. -/
theorem write_other_withIncoming (chunk : Bytes) :
    (link.withIncoming side inbox remainder).write side.other chunk =
      match link.writeFault? side.other with
      | some fault => .error fault
      | none =>
        .ok (link.withIncoming side (if chunk.isEmpty then inbox else inbox ++ [chunk])
          remainder) := by
  have hfault : (link.withIncoming side inbox remainder).writeFault? side.other =
      link.writeFault? side.other := by
    simp only [writeFault?, isClosed_withIncoming]
    rfl
  unfold write
  rw [hfault]
  rcases link.writeFault? side.other with _ | fault
  · by_cases hempty : chunk.isEmpty = true
    · simp only [hempty, ↓reduceIte]
    · simp only [hempty, Bool.false_eq_true, ↓reduceIte]
      cases side <;> rfl
  · rfl

theorem read_eq_withIncoming {link after : Link} {side : Side} {size : Nat}
    {result : Except LinkFault (Option Bytes)} (h : link.read side size = (after, result)) :
    ∃ inbox remainder, after = link.withIncoming side inbox remainder := by
  have hsame : link =
      link.withIncoming side (link.ends.get side).inbox (link.ends.get side).remainder := by
    cases side <;> rfl
  unfold read at h
  simp only at h
  split at h
  · cases h
    exact ⟨_, _, hsame⟩
  · split at h
    · cases h
      exact ⟨_, _, hsame⟩
    · split at h
      · cases h
        exact ⟨_, _, rfl⟩
      · split at h
        · cases h
          exact ⟨_, _, rfl⟩
        · cases h
          exact ⟨_, _, hsame⟩

theorem close_withIncoming :
    (link.withIncoming side inbox remainder).close side =
      (link.close side).withIncoming side inbox remainder := by
  cases side <;> rfl

end Link

namespace Mux

/-! ### The parts of a session -/

def inlet (m : Mux) : Inlet :=
  ⟨m.loop, m.assembler, (m.link.ends.get m.side).inbox, (m.link.ends.get m.side).remainder⟩

/-- The session with another inlet. -/
def withInlet (m : Mux) (inlet : Inlet) : Mux :=
  { m with
      loop := inlet.loop
      assembler := inlet.assembler
      link := m.link.withIncoming m.side inlet.inbox inlet.remainder }

theorem inlet_withInlet (m : Mux) (inlet : Inlet) : (m.withInlet inlet).inlet = inlet := by
  obtain ⟨⟨side, _, _, _, _, _, _, _, _, _, _, _, _⟩, _⟩ := m
  cases side <;> rfl

theorem withInlet_withInlet (m : Mux) (inlet other : Inlet) :
    (m.withInlet inlet).withInlet other = m.withInlet other := by
  obtain ⟨⟨side, _, _, _, _, _, _, _, _, _, _, _, _⟩, _⟩ := m
  cases side <;> rfl

section Fields

variable (m : Mux) (inlet : Inlet)

@[simp] theorem side_withInlet : (m.withInlet inlet).side = m.side := rfl

@[simp] theorem settings_withInlet : (m.withInlet inlet).settings = m.settings := rfl

@[simp] theorem ids_withInlet : (m.withInlet inlet).ids = m.ids := rfl

@[simp] theorem registry_withInlet : (m.withInlet inlet).registry = m.registry := rfl

@[simp] theorem tornDown_withInlet : (m.withInlet inlet).tornDown = m.tornDown := rfl

@[simp] theorem assembler_withInlet : (m.withInlet inlet).assembler = inlet.assembler := rfl

@[simp] theorem conditions_withInlet : (m.withInlet inlet).conditions = m.conditions := rfl

@[simp] theorem link_withInlet :
    (m.withInlet inlet).link = m.link.withIncoming m.side inlet.inbox inlet.remainder := rfl

@[simp] theorem isClosed_withInlet : (m.withInlet inlet).isClosed = m.isClosed := by
  simp [isClosed]

end Fields

variable (m : Mux) (inlet : Inlet)

/-! ### Journal, counters and streams -/

theorem note_withInlet (entry : Note) :
    (m.withInlet inlet).note entry = (m.note entry).withInlet inlet := rfl

theorem count_withInlet (f : Counters → Counters) :
    (m.withInlet inlet).count f = (m.count f).withInlet inlet := rfl

theorem countEnding_withInlet (ending : Ending) :
    (m.withInlet inlet).countEnding ending = (m.countEnding ending).withInlet inlet := by
  cases ending <;> rfl

theorem update_withInlet (serial : Nat) (stream : Stream) :
    (m.withInlet inlet).update serial stream = (m.update serial stream).withInlet inlet := rfl

theorem sweep_withInlet (id : UInt64) :
    (m.withInlet inlet).sweep id = (m.sweep id).withInlet inlet := rfl

/-! ### Using the link -/

theorem transmit_withInlet (chunk : Bytes) :
    (m.withInlet inlet).transmit chunk =
      ((m.transmit chunk).1.withInlet inlet, (m.transmit chunk).2) := by
  unfold transmit
  rcases hfail : m.conditions.failWrite with _ | fault
  · rcases hwrite : m.link.write m.side chunk with fault | link
    · simp only [conditions_withInlet, hfail, link_withInlet, side_withInlet,
        Link.write_withIncoming, hwrite, Except.map]
    · simp only [conditions_withInlet, hfail, link_withInlet, side_withInlet,
        Link.write_withIncoming, hwrite, Except.map]
      rfl
  · simp only [conditions_withInlet, hfail]
    rfl

theorem shut_withInlet :
    (m.withInlet inlet).shut = (m.shut.1.withInlet inlet, m.shut.2) := by
  have hclose : { m.withInlet inlet with
        link := (m.link.withIncoming m.side inlet.inbox inlet.remainder).close m.side }.note
          (.linkClosed m.side) =
      ({ m with link := m.link.close m.side }.note (.linkClosed m.side)).withInlet inlet := by
    rw [Link.close_withIncoming]
    rfl
  unfold shut
  by_cases hgone : m.link.isClosed m.side = true
  · simp only [side_withInlet, link_withInlet, Link.isClosed_withIncoming, hgone, ↓reduceIte,
      conditions_withInlet]
    rcases m.conditions.failClose with _ | fault <;> rfl
  · simp only [side_withInlet, link_withInlet, Link.isClosed_withIncoming, hgone, ↓reduceIte,
      Bool.false_eq_true, hclose, conditions_withInlet]
    generalize { m with link := m.link.close m.side }.note (.linkClosed m.side) = closed
    rcases closed.conditions.failClose with _ | fault <;> rfl

theorem tearDown_withInlet (cause : Cause) :
    (m.withInlet inlet).tearDown cause = (m.tearDown cause).withInlet inlet := by
  obtain ⟨begun, hbegun⟩ :
      ∃ begun, { m with tornDown := true }.note (.tearingDown cause) = begun := ⟨_, rfl⟩
  have hinlet : { m.withInlet inlet with tornDown := true }.note (.tearingDown cause) =
      begun.withInlet inlet := by
    rw [← hbegun]
    rfl
  unfold tearDown
  simp only [tornDown_withInlet, hinlet, hbegun, shut_withInlet]
  by_cases htorn : m.tornDown = true
  · simp only [if_pos htorn]
  · simp only [if_neg htorn]
    rcases begun.shut with ⟨after, fault | _⟩ <;> rfl

theorem send_withInlet (frame : Frame) :
    (m.withInlet inlet).send frame = ((m.send frame).1.withInlet inlet, (m.send frame).2) := by
  unfold send
  simp only [isClosed_withInlet, transmit_withInlet]
  rcases frame.encode with fault | bytes
  · rfl
  · by_cases hclosed : m.isClosed = true
    · simp only [if_pos hclosed]
    · simp only [if_neg hclosed]
      rcases m.transmit bytes with ⟨after, fault | _⟩
      · simp only [note_withInlet, tearDown_withInlet]
      · rfl

theorem terminate_withInlet (serial : Nat) (ending : Ending) :
    (m.withInlet inlet).terminate serial ending =
      ((m.terminate serial ending).1.withInlet inlet, (m.terminate serial ending).2) := by
  unfold terminate
  simp only [registry_withInlet, update_withInlet, countEnding_withInlet, note_withInlet,
    send_withInlet, sweep_withInlet]
  by_cases hsevered : (m.registry.stream serial).severed = true
  · simp only [if_pos hsevered]
  · simp only [if_neg hsevered]
    rcases (m.registry.stream serial).terminate ending with ⟨finished, _ | _⟩ <;> rfl

/-! ### Frames of the peer -/

theorem bind_withInlet (id : UInt64) (announced : Bool) :
    (m.withInlet inlet).bind id announced =
      ((m.bind id announced).1.withInlet inlet, (m.bind id announced).2) := by
  unfold bind
  simp only [tornDown_withInlet, registry_withInlet, ids_withInlet, settings_withInlet]
  by_cases htorn : m.tornDown = true
  · simp only [htorn, ↓reduceIte]
  · simp only [htorn, Bool.false_eq_true, ↓reduceIte]
    rcases m.registry.find? id with _ | serial
    · by_cases hown : m.ids.owns id = true
      · simp only [hown, ↓reduceIte]
      · simp only [hown, Bool.false_eq_true, ↓reduceIte]
        by_cases hfull : m.settings.pendingLimit ≤ m.registry.pending.length
        · cases announced with
          | false => simp [hfull]
          | true =>
            simp only [hfull, decide_true, Bool.not_true, Bool.false_and, Bool.false_eq_true,
              ↓reduceIte]
            rfl
        · simp only [hfull, decide_false, Bool.and_false, Bool.false_eq_true, ↓reduceIte]
          rfl
    · rfl

theorem turnAway_withInlet (id : UInt64) (kind : Kind) (refusal : Refusal) :
    (m.withInlet inlet).turnAway id kind refusal =
      (m.turnAway id kind refusal).withInlet inlet := by
  cases refusal with
  | crowded =>
    simp only [turnAway, note_withInlet, send_withInlet]
    rcases (m.note (.refused id .crowded)).send (.ofKind id .resetAcceptor []) with
      ⟨after, fault | _⟩ <;> rfl
  | closed => rfl
  | ownNumber => rfl

theorem forget_withInlet (serial : Nat) :
    (m.withInlet inlet).forget serial = (m.forget serial).withInlet inlet := by
  unfold forget
  by_cases hgoes : ((m.registry.stream serial).isOver &&
      m.registry.find? (m.registry.stream serial).id == some serial) = true
  · refine (if_pos hgoes).trans ?_
    simp only [if_pos hgoes]
    rfl
  · refine (if_neg hgoes).trans ?_
    simp only [if_neg hgoes]

theorem drop_withInlet (place : Nat) :
    (m.withInlet inlet).drop place = (m.drop place).withInlet inlet := by
  unfold drop
  simp only [show (m.withInlet inlet).handles = m.handles from rfl]
  rcases m.handles[place]? with _ | handle
  · rfl
  · by_cases hlive : handle.live = true
    · simp only [if_pos hlive]
      exact forget_withInlet
        { m with handles := m.handles.set place { handle with live := false } } inlet handle.serial
    · simp only [if_neg hlive]

theorem callHandler_withInlet (id : UInt64) (serial : Nat) :
    (m.withInlet inlet).callHandler id serial =
      ((m.callHandler id serial).1.withInlet inlet, (m.callHandler id serial).2) := by
  by_cases hpending : id ∈ m.registry.pending
  · have hpending' : id ∈ (m.withInlet inlet).registry.pending := hpending
    rcases hstart : m.conditions.failStart with _ | text
    · rw [callHandler_started hpending' hstart, callHandler_started hpending hstart]
      rfl
    · rw [callHandler_unstarted hpending' hstart, callHandler_unstarted hpending hstart]
      exact Prod.ext (drop_withInlet { m.accepted id serial with
        conditions := { m.conditions with failStart := none } } inlet m.handles.length) rfl
  · have hpending' : id ∉ (m.withInlet inlet).registry.pending := hpending
    rw [callHandler_of_not_mem hpending', callHandler_of_not_mem hpending]

theorem cutShort_withInlet (serial : Nat) :
    (m.withInlet inlet).cutShort serial = (m.cutShort serial).withInlet inlet := by
  unfold cutShort
  simp only [registry_withInlet, terminate_withInlet]
  rcases m.terminate serial .reset with ⟨after, fault | _⟩ <;> rfl

theorem announce_withInlet (id : UInt64) (serial : Nat) :
    (m.withInlet inlet).announce id serial = (m.announce id serial).withInlet inlet := by
  unfold announce
  rw [callHandler_withInlet]
  rcases m.callHandler id serial with ⟨called, fault | _ | _⟩
  · exact (called.note (.notDispatched id fault)).cutShort_withInlet inlet serial
  · rfl
  · rfl

theorem enqueue_withInlet (serial : Nat) (payload : Bytes) :
    (m.withInlet inlet).enqueue serial payload = (m.enqueue serial payload).withInlet inlet := by
  unfold enqueue
  simp only [registry_withInlet, settings_withInlet, note_withInlet, cutShort_withInlet,
    update_withInlet, count_withInlet]
  by_cases hempty : payload.isEmpty = true
  · simp only [if_pos hempty]
  · simp only [if_neg hempty]
    rcases (m.registry.stream serial).push payload with ⟨longer, _ | _ | _⟩ <;> rfl

theorem endByPeer_withInlet (id : UInt64) (ending : Ending) :
    (m.withInlet inlet).endByPeer id ending = (m.endByPeer id ending).withInlet inlet := by
  unfold endByPeer
  simp only [registry_withInlet, update_withInlet, countEnding_withInlet, note_withInlet,
    sweep_withInlet, count_withInlet]
  rcases m.registry.find? id with _ | serial
  · rfl
  · simp only
    rcases (m.registry.stream serial).terminate ending with ⟨finished, _ | _⟩ <;> rfl

theorem message_withInlet {kind : Kind} (message : kind.isMessage = true) (id : UInt64)
    (payload : Bytes) : (m.withInlet inlet).receiveKind kind id payload =
      (m.receiveKind kind id payload).withInlet inlet := by
  have hbind := m.bind_withInlet inlet id false
  rcases hbound : m.bind id false with ⟨after, refusal | ⟨serial, isNew⟩⟩
  · rw [hbound] at hbind
    rw [receiveKind_refused message hbind, receiveKind_refused message hbound]
    exact after.turnAway_withInlet inlet id kind refusal
  · rw [hbound] at hbind
    rw [receiveKind_bound message hbind, receiveKind_bound message hbound]
    cases isNew with
    | false => exact after.enqueue_withInlet inlet serial payload
    | true => exact (after.note (.early id)).enqueue_withInlet inlet serial payload

theorem receiveKind_withInlet (kind : Kind) (id : UInt64) (payload : Bytes) :
    (m.withInlet inlet).receiveKind kind id payload =
      (m.receiveKind kind id payload).withInlet inlet := by
  cases kind with
  | newStream =>
    simp only [receiveKind, bind_withInlet]
    rcases m.bind id true with ⟨after, refusal | ⟨serial, isNew⟩⟩
    · exact after.turnAway_withInlet inlet id .newStream refusal
    · simp only [announce_withInlet]
      exact (after.announce id serial).enqueue_withInlet inlet serial payload
  | messageAcceptor => exact m.message_withInlet inlet rfl id payload
  | messageOpener => exact m.message_withInlet inlet rfl id payload
  | closeAcceptor => exact m.endByPeer_withInlet inlet id .closed
  | closeOpener => exact m.endByPeer_withInlet inlet id .closed
  | resetAcceptor => exact m.endByPeer_withInlet inlet id .reset
  | resetOpener => exact m.endByPeer_withInlet inlet id .reset

/-- **A frame does the same to a session with another inlet.** -/
theorem receive_withInlet (frame : Frame) :
    (m.withInlet inlet).receive frame = (m.receive frame).withInlet inlet := by
  unfold receive
  rcases frame.kind? with _ | kind
  · rfl
  · simp only [note_withInlet, receiveKind_withInlet, count_withInlet]

theorem receiveAll_withInlet (frames : List Frame) :
    frames.foldl receive (m.withInlet inlet) = (frames.foldl receive m).withInlet inlet := by
  induction frames generalizing m with
  | nil => rfl
  | cons frame frames ih => rw [List.foldl_cons, receive_withInlet, ih, List.foldl_cons]

/-- **The end of the loop does the same to a session with another inlet.** -/
theorem stop_withInlet (fault : Option Fault) :
    (m.withInlet inlet).stop fault =
      (m.stop fault).withInlet { inlet with loop := .ended } := by
  rcases fault with _ | fault
  · rfl
  · simp only [stop, isClosed_withInlet]
    by_cases hclosed : m.isClosed = true
    · simp only [if_pos hclosed]
      rfl
    · simp only [if_neg hclosed, note_withInlet, tearDown_withInlet]
      rfl

/-- What comes in goes into the inlet, unless the link refuses it. -/
theorem arrive_withInlet (chunk : Bytes) :
    ((m.withInlet inlet).perform (.arrive chunk)).1 =
      match m.link.writeFault? m.side.other with
      | some _ => m.withInlet inlet
      | none => m.withInlet (inlet.push chunk) := by
  simp only [perform, side_withInlet, link_withInlet, Link.write_other_withIncoming]
  rcases m.link.writeFault? m.side.other with _ | fault <;> rfl

end Mux

end StreamMux
