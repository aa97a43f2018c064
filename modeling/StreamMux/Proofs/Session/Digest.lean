import StreamMux.Proofs.Session.Arrivals
import StreamMux.Proofs.Session.Calm
import StreamMux.Proofs.Session.Inlet
import StreamMux.Proofs.Wire.Reading

/-!
# What a session makes of a byte string

A peer sends a byte string in chunks, and nothing else happens to the session than turns of its
loop.  What becomes of the session is decided by the byte string: the frames in front of it are
applied one after the other, and bytes that are no frame tear the connection down once.

* `Mux.digest` — the session after a byte string, without link, assembler or loop;
* `Mux.Digesting` — how far a session has come with a byte string, between two turns of its loop;
* `Mux.Digesting.turn`, `Mux.Digesting.arrive` — a turn and a chunk keep that;
* `Mux.Digesting.pump` — the loop comes to rest;
* `Mux.digests_run` — then the session is what it is after its digest, whatever the chunks were.
-/

namespace StreamMux

/-- How far the loop is from waiting. -/
def LoopState.rank : LoopState → Nat
  | .ended | .waiting => 0
  | .ready => 1
  | .fed => 2

theorem LoopState.rank_ended : LoopState.ended.rank = 0 := rfl

theorem LoopState.rank_ready : LoopState.ready.rank = 1 := rfl

theorem LoopState.rank_fed : LoopState.fed.rank = 2 := rfl

theorem LoopState.rank_waiting : LoopState.waiting.rank = 0 := rfl

namespace Inlet

/-- What is left to do: a byte on the link is read, looked at and applied. -/
def effort (inlet : Inlet) : Nat :=
  4 * inlet.pending.length + inlet.assembler.buffered + inlet.loop.rank

end Inlet

namespace Mux

variable {m m' eaten fresh : Mux} {inlet : Inlet} {offered : Bytes}

/-! ### The digest of a byte string -/

/-- Applies frames one after the other. -/
def receiveAll (m : Mux) (frames : List Frame) : Mux :=
  frames.foldl receive m

/-- The session after a byte string: the frames in front of it are applied, and if what stands
behind them is no frame, the connection is torn down. -/
def digest (m : Mux) (bytes : Bytes) : Mux :=
  let (pieces, rest) := Frame.pieces m.settings.frameLimit bytes
  let eaten := m.receiveAll (pieces.map Frame.Piece.frame)
  match Frame.cut rest m.settings.frameLimit with
  | .ok _ => eaten
  | .error fault =>
    ((eaten.note (.malformed (.frame fault))).tearDown (.readFailed (.frame fault))).note
      .loopStopped

theorem receiveAll_concat (m : Mux) (frames : List Frame) (frame : Frame) :
    m.receiveAll (frames ++ [frame]) = (m.receiveAll frames).receive frame := by
  simp [receiveAll]

theorem Calm.after_receive (calm : m.Calm) (frame : Frame) : (m.receive frame).Calm := by
  obtain ⟨out, l, -, hleads⟩ := receives m frame
  have hup : l.tornDown = false := by
    rw [← hleads.ledger]
    exact (calm.willing.receive frame).trans calm.up
  exact calm.of_leads hleads hup

theorem settings_receive (m : Mux) (frame : Frame) : (m.receive frame).settings = m.settings := by
  obtain ⟨out, l, -, hleads⟩ := receives m frame
  exact hleads.passes.settings

theorem Calm.after_receiveAll (calm : m.Calm) (frames : List Frame) :
    (m.receiveAll frames).Calm ∧ (m.receiveAll frames).settings = m.settings := by
  induction frames using List.reverseRecOn with
  | nil => exact ⟨calm, rfl⟩
  | append_singleton frames frame ih =>
    rw [receiveAll_concat]
    exact ⟨ih.1.after_receive frame, (settings_receive _ frame).trans ih.2⟩

/-- A calm session is torn down for a fault once, and its loop ends. -/
theorem Calm.stop_eq (calm : m.Calm) (fault : FrameFault) :
    (m.stop (some (.frame fault))).withInlet {} =
      (((m.note (.malformed (.frame fault))).tearDown (.readFailed (.frame fault))).note
        .loopStopped).withInlet {} := by
  simp only [stop, calm.isClosed, Bool.false_eq_true, ↓reduceIte]
  rfl

/-! ### Turns of the loop -/

/-- What the loop does with what is in the assembler, apart from the inlet. -/
theorem proceed_withInlet (m : Mux) (inlet : Inlet) (next : LoopState) :
    (m.withInlet inlet).proceed next =
      match Frame.cut inlet.assembler.buffer m.settings.frameLimit with
      | .error fault => (m.stop (some (.frame fault))).withInlet { inlet with loop := .ended }
      | .ok none => m.withInlet { inlet with loop := next }
      | .ok (some (frame, rest)) =>
        (m.receive frame).withInlet { inlet with assembler := ⟨rest⟩, loop := .ready } := by
  unfold proceed Assembler.take
  rw [assembler_withInlet, settings_withInlet]
  rcases Frame.cut inlet.assembler.buffer m.settings.frameLimit with fault | _ | ⟨frame, rest⟩
  · exact m.stop_withInlet inlet _
  · rfl
  · exact m.receive_withInlet { inlet with assembler := ⟨rest⟩, loop := .ready } frame

/-- A session whose own end is open, with no empty chunk on its way to it. -/
theorem Calm.receptive (calm : m.Calm) (full : ∀ chunk ∈ inlet.inbox, chunk ≠ []) :
    (m.withInlet inlet).link.Receptive m.side where
  near := by rw [link_withInlet, Link.isClosed_withIncoming, calm.near]
  reset := calm.reset
  full := by
    rw [link_withInlet, Link.get_withIncoming]
    exact full

theorem Calm.turn_ready (calm : m.Calm) (ready : inlet.loop = .ready) :
    (m.withInlet inlet).turn = some ((m.withInlet inlet).proceed .waiting) := by
  have hloop : (m.withInlet inlet).loop = .ready := ready
  unfold turn
  simp only [hloop, isClosed_withInlet, calm.isClosed, Bool.false_eq_true, ↓reduceIte]

theorem turn_fed (m : Mux) (fed : inlet.loop = .fed) :
    (m.withInlet inlet).turn = some ((m.withInlet inlet).proceed .ready) := by
  have hloop : (m.withInlet inlet).loop = .fed := fed
  unfold turn
  simp only [hloop]

/-- Without failures to come, the loop is given what a read of the link gives. -/
theorem poll_of_chunk (hcalm : m.conditions = {}) {link : Link} {chunk : Bytes}
    (hread : m.link.read m.side m.settings.readSize = (link, .ok (some chunk))) :
    m.poll = ({ m with link }, some (.ok (some chunk))) := by
  unfold poll
  simp [hcalm, hread]

theorem poll_of_dry (hcalm : m.conditions = {}) {link : Link}
    (hread : m.link.read m.side m.settings.readSize = (link, .ok none)) :
    m.poll = (m, none) := by
  unfold poll
  simp [hcalm, hread]

/-- A turn of a loop that waits: there is nothing to read, or a chunk goes into the assembler. -/
theorem Calm.turn_waiting (calm : m.Calm) (full : ∀ chunk ∈ inlet.inbox, chunk ≠ [])
    (waiting : inlet.loop = .waiting) :
    ((m.withInlet inlet).turn = none ∧ inlet.pending = []) ∨
      ∃ chunk inbox remainder, chunk ≠ [] ∧ (∀ chunk ∈ inbox, chunk ≠ []) ∧
        inlet.pending = chunk ++ (remainder ++ inbox.flatten) ∧
        (m.withInlet inlet).turn =
          some (m.withInlet ⟨.fed, inlet.assembler.feed chunk, inbox, remainder⟩) := by
  have hloop : (m.withInlet inlet).loop = .waiting := waiting
  have hpending : ((m.withInlet inlet).link.ends.get m.side).pending = inlet.pending := by
    rw [link_withInlet, Link.get_withIncoming]
    rfl
  have hcalm : (m.withInlet inlet).conditions = {} := calm.conditions
  unfold turn
  simp only [hloop]
  rcases (calm.receptive full).read m.settings.readSize with
    ⟨after, chunk, hread, hchunk, hafter, -⟩ | ⟨hread, hdry⟩
  · obtain ⟨inbox, remainder, rfl⟩ := Link.read_eq_withIncoming hread
    have hsplit := Link.pending_read hread
    rw [hpending, Link.get_withIncoming] at hsplit
    have hfull := hafter.full
    rw [Link.get_withIncoming] at hfull
    refine Or.inr ⟨chunk, inbox, remainder, hchunk, hfull, hsplit, ?_⟩
    rw [poll_of_chunk hcalm hread]
    exact congrArg some (withInlet_withInlet m inlet ⟨.fed, inlet.assembler.feed chunk, inbox,
      remainder⟩)
  · refine Or.inl ⟨?_, hpending ▸ hdry⟩
    have hfar : (m.withInlet inlet).link.isClosed m.side.other = false := by
      rw [link_withInlet, Link.isClosed_withIncoming, calm.far]
    rw [hfar] at hread
    rw [poll_of_dry hcalm hread]

/-! ### Between two turns -/

/-- How far a session has come with the bytes that were offered to it: some pieces are applied, and
the others wait; or the piece behind them is no frame, and the loop has ended for that. -/
inductive Digesting (fresh : Mux) (offered : Bytes) : Mux → Prop where
  | going (taken : List (Frame.Piece fresh.settings.frameLimit)) (inlet : Inlet)
      (bytes : offered =
        taken.flatMap Frame.Piece.bytes ++ (inlet.assembler.buffer ++ inlet.pending))
      (full : ∀ chunk ∈ inlet.inbox, chunk ≠ [])
      (loop : inlet.loop ≠ .ended)
      (short : inlet.loop = .waiting →
        Frame.cut inlet.assembler.buffer fresh.settings.frameLimit = .ok none) :
      Digesting fresh offered
        ((fresh.receiveAll (taken.map Frame.Piece.frame)).withInlet inlet)
  | ended (taken : List (Frame.Piece fresh.settings.frameLimit)) (inlet : Inlet) (front : Bytes)
      (fault : FrameFault) (bytes : offered = taken.flatMap Frame.Piece.bytes ++ front)
      (malformed : Frame.cut front fresh.settings.frameLimit = .error fault)
      (loop : inlet.loop = .ended) :
      Digesting fresh offered
        (((fresh.receiveAll (taken.map Frame.Piece.frame)).stop
          (some (.frame fault))).withInlet inlet)

namespace Digesting

theorem proceed (calm : fresh.Calm) {taken : List (Frame.Piece fresh.settings.frameLimit)}
    {next : LoopState} (hbytes : offered =
      taken.flatMap Frame.Piece.bytes ++ (inlet.assembler.buffer ++ inlet.pending))
    (hfull : ∀ chunk ∈ inlet.inbox, chunk ≠ []) (going : next ≠ .ended)
    (hless : next.rank < inlet.loop.rank) :
    let before := (fresh.receiveAll (taken.map Frame.Piece.frame)).withInlet inlet
    Digesting fresh offered (before.proceed next) ∧
      (before.proceed next).inlet.effort < inlet.effort := by
  obtain ⟨-, hsettings⟩ := calm.after_receiveAll (taken.map Frame.Piece.frame)
  simp only [proceed_withInlet, hsettings]
  rcases hcut : Frame.cut inlet.assembler.buffer fresh.settings.frameLimit with
    fault | _ | ⟨frame, rest⟩
  · refine ⟨.ended taken _ _ fault hbytes (Frame.cut_error_append hcut _) rfl, ?_⟩
    simp only [inlet_withInlet, Inlet.effort, Inlet.pending, LoopState.rank_ended]
    omega
  · refine ⟨.going taken _ hbytes hfull going fun _ => hcut, ?_⟩
    simp only [inlet_withInlet, Inlet.effort, Inlet.pending]
    omega
  · have hshorter := Frame.length_lt_of_cut hcut
    let piece : Frame.Piece fresh.settings.frameLimit := ⟨_, frame, Frame.whole_of_cut hcut⟩
    have hfront : piece.bytes ++ rest = inlet.assembler.buffer := Frame.append_of_cut hcut
    have hbehind : offered =
        (taken ++ [piece]).flatMap Frame.Piece.bytes ++ (rest ++ inlet.pending) := by
      rw [hbytes, List.flatMap_append, List.flatMap_singleton, List.append_assoc,
        ← List.append_assoc piece.bytes, hfront]
    have hgoing : Digesting fresh offered _ :=
      .going (taken ++ [piece]) { inlet with assembler := ⟨rest⟩, loop := .ready } hbehind hfull
        (by simp) (by simp)
    rw [List.map_append, List.map_singleton, receiveAll_concat] at hgoing
    refine ⟨hgoing, ?_⟩
    simp only [inlet_withInlet, Inlet.effort, Inlet.pending, Assembler.buffered,
      LoopState.rank_ready]
    omega

/-- **A turn takes the session further with its bytes**, and leaves less to do. -/
theorem turn (calm : fresh.Calm) (h : Digesting fresh offered m) (hturn : m.turn = some m') :
    Digesting fresh offered m' ∧ m'.inlet.effort < m.inlet.effort := by
  cases h with
  | going taken inlet bytes full loop short =>
    obtain ⟨hcalm, -⟩ := calm.after_receiveAll (taken.map Frame.Piece.frame)
    have hproceed := @proceed fresh inlet offered calm taken
    rw [inlet_withInlet]
    generalize heaten : fresh.receiveAll (taken.map Frame.Piece.frame) = eaten
      at hcalm hproceed hturn ⊢
    cases hloop : inlet.loop with
    | ended => exact absurd hloop loop
    | ready =>
      rw [hcalm.turn_ready hloop] at hturn
      cases hturn
      exact hproceed bytes full (by simp) (by rw [hloop]; decide)
    | fed =>
      rw [turn_fed eaten hloop] at hturn
      cases hturn
      exact hproceed bytes full (by simp) (by rw [hloop]; decide)
    | waiting =>
      rcases hcalm.turn_waiting full hloop with
        ⟨hnone, -⟩ | ⟨chunk, inbox, remainder, hchunk, hinbox, hpending, heq⟩
      · rw [hnone] at hturn
        cases hturn
      · rw [heq] at hturn
        cases hturn
        -- what was read moves from the link to the assembler, which counts for less
        have hmore : offered = taken.flatMap Frame.Piece.bytes ++
            ((inlet.assembler.buffer ++ chunk) ++ (remainder ++ inbox.flatten)) := by
          rw [bytes, hpending, ← List.append_assoc inlet.assembler.buffer]
        have hpos := List.length_pos_iff.mpr hchunk
        have hlengths := congrArg List.length hpending
        refine ⟨?_, ?_⟩
        · have hgoing : Digesting fresh offered _ :=
            .going taken ⟨.fed, inlet.assembler.feed chunk, inbox, remainder⟩ hmore hinbox (by simp)
              (by simp)
          rwa [heaten] at hgoing
        · simp only [inlet_withInlet, Inlet.effort, hloop, LoopState.rank_fed,
            LoopState.rank_waiting, Assembler.buffered, Assembler.feed, List.length_append] at *
          simp only [Inlet.pending, List.length_append] at *
          omega
  | ended taken inlet front fault bytes malformed loop =>
    unfold Mux.turn at hturn
    rw [show (Mux.withInlet _ inlet).loop = .ended from loop] at hturn
    cases hturn

/-- A chunk that comes in waits behind the others.  Once the connection is torn down it is refused,
and stands behind the bytes that are no frame. -/
theorem arrive (calm : fresh.Calm) (h : Digesting fresh offered m) (chunk : Bytes) :
    Digesting fresh (offered ++ chunk) (m.perform (.arrive chunk)).1 := by
  cases h with
  | going taken inlet bytes full loop short =>
    obtain ⟨hcalm, -⟩ := calm.after_receiveAll (taken.map Frame.Piece.frame)
    have hopen : (fresh.receiveAll (taken.map Frame.Piece.frame)).link.writeFault?
        (fresh.receiveAll (taken.map Frame.Piece.frame)).side.other = none := by
      simp [Link.writeFault?, Side.other_other, hcalm.near, hcalm.far, hcalm.reset]
    rw [arrive_withInlet, hopen]
    refine .going taken (inlet.push chunk) ?_ (Inlet.full_push full chunk) loop short
    rw [bytes, Inlet.pending_push]
    simp only [Inlet.push, List.append_assoc]
  | ended taken inlet front fault bytes malformed loop =>
    have hbytes : offered ++ chunk = taken.flatMap Frame.Piece.bytes ++ (front ++ chunk) := by
      rw [bytes, List.append_assoc]
    have hcut := Frame.cut_error_append malformed chunk
    rw [arrive_withInlet]
    split
    · exact .ended taken inlet (front ++ chunk) fault hbytes hcut loop
    · exact .ended taken (inlet.push chunk) (front ++ chunk) fault hbytes hcut loop

/-- **The loop comes to rest.** -/
theorem pump (calm : fresh.Calm) (h : Digesting fresh offered m) :
    Digesting fresh offered (m.pump .keep) ∧ (m.pump .keep).turn = none := by
  have hrest : ∀ turns m, Digesting fresh offered m → m.inlet.effort ≤ turns →
      Digesting fresh offered (pumpFor .keep turns m) ∧ (pumpFor .keep turns m).turn = none := by
    intro turns
    induction turns with
    | zero =>
      intro m h hturns
      refine ⟨h, ?_⟩
      rcases hturn : m.turn with _ | after
      · exact hturn
      · have hless := (h.turn calm hturn).2
        omega
    | succ turns ih =>
      intro m h hturns
      rw [pumpFor]
      rcases hturn : m.turn with _ | after
      · exact ⟨h, hturn⟩
      · obtain ⟨hafter, hless⟩ := h.turn calm hturn
        exact ih after hafter (by omega)
  refine hrest m.turnBound m h ?_
  -- the bound on turns is more than there is to do
  have hrank : m.loop.rank ≤ 2 := by cases m.loop <;> decide
  simp only [Inlet.effort, inlet, Inlet.pending, turnBound, LinkEnd.pending]
  omega

/-- Once the loop has come to rest, the session is what it is after the digest. -/
theorem eq_digest (calm : fresh.Calm) (h : Digesting fresh offered m) (rest : m.turn = none) :
    m.withInlet {} = (fresh.digest offered).withInlet {} := by
  cases h with
  | going taken inlet bytes full loop short =>
    obtain ⟨hcalm, -⟩ := calm.after_receiveAll (taken.map Frame.Piece.frame)
    have hwaiting : inlet.loop = .waiting := by
      cases hloop : inlet.loop with
      | waiting => rfl
      | ended => exact absurd hloop loop
      | ready =>
        rw [hcalm.turn_ready hloop] at rest
        cases rest
      | fed =>
        rw [turn_fed _ hloop] at rest
        cases rest
    have hdry : inlet.pending = [] := by
      rcases hcalm.turn_waiting full hwaiting with ⟨-, hdry⟩ | ⟨_, _, _, -, -, -, hsome⟩
      · exact hdry
      · rw [hsome] at rest
        cases rest
    have hpieces : Frame.pieces fresh.settings.frameLimit offered =
        (taken, inlet.assembler.buffer) := by
      rw [bytes, hdry, List.append_nil, Frame.pieces_flatMap_append,
        Frame.pieces_of_none (short hwaiting), List.append_nil]
    rw [withInlet_withInlet]
    simp only [digest, hpieces, short hwaiting]
  | ended taken inlet front fault bytes malformed loop =>
    obtain ⟨hcalm, -⟩ := calm.after_receiveAll (taken.map Frame.Piece.frame)
    have hpieces : Frame.pieces fresh.settings.frameLimit offered = (taken, front) := by
      rw [bytes, Frame.pieces_flatMap_append, Frame.pieces_of_error malformed, List.append_nil]
    rw [withInlet_withInlet, hcalm.stop_eq]
    simp only [digest, hpieces, malformed]

end Digesting

/-! ### Whatever the chunks -/

/-- What happens while a peer sends and nobody else does anything. -/
inductive Delivery where
  | chunk (chunk : Bytes)
  | turn
  deriving DecidableEq, Repr

namespace Delivery

def op : Delivery → Op
  | chunk bytes => .arrive bytes
  | turn => .turn

def bytes : Delivery → Bytes
  | chunk bytes => bytes
  | turn => []

end Delivery

theorem digesting_run (side : Side) (settings : Settings) (deliveries : List Delivery) :
    Digesting (start side settings) (deliveries.flatMap Delivery.bytes)
      (run side settings (deliveries.map Delivery.op)) := by
  have calm := calm_start side settings
  induction deliveries using List.reverseRecOn with
  | nil =>
    have hbegun : Digesting (start side settings) [] _ :=
      .going [] {} rfl (by simp) (by simp) (by simp)
    cases side <;> exact hbegun
  | append_singleton deliveries delivery ih =>
    rw [List.flatMap_append, List.flatMap_singleton, List.map_append, List.map_singleton,
      run_concat]
    generalize run side settings (deliveries.map Delivery.op) = before at ih ⊢
    cases delivery with
    | chunk chunk => exact ih.arrive calm chunk
    | turn =>
      simp only [Delivery.op, Delivery.bytes, perform, List.append_nil]
      rcases hturn : before.turn with _ | after
      · exact ih
      · exact (ih.turn calm hturn).1

theorem digest_withInlet (m : Mux) (inlet : Inlet) (bytes : Bytes) :
    (m.withInlet inlet).digest bytes = (m.digest bytes).withInlet inlet := by
  simp only [digest, settings_withInlet, receiveAll, receiveAll_withInlet]
  split
  · rfl
  · simp only [note_withInlet, tearDown_withInlet]

/-- A digest tells of one teardown, or of none, in its journal. -/
theorem tornOnce_digest (side : Side) (settings : Settings) (bytes : Bytes) :
    ((start side settings).digest bytes).TornOnce := by
  have heaten : ∀ frames, ((start side settings).receiveAll frames).TornOnce := by
    intro frames
    induction frames using List.reverseRecOn with
    | nil => exact rfl
    | append_singleton frames frame ih =>
      rw [receiveAll_concat]
      obtain ⟨called, hgreets⟩ := greets_receive ((start side settings).receiveAll frames) frame
      exact hgreets.tornOnce ih
  have hbefore := heaten ((Frame.pieces settings.frameLimit bytes).1.map Frame.Piece.frame)
  unfold digest
  simp only
  split
  · exact hbefore
  · rename_i fault _
    have htorn := (greets_tearDown _ (.readFailed (.frame fault))).tornOnce
      ((Greets.note _ (.malformed (.frame fault)) rfl).tornOnce hbefore)
    exact (Greets.note _ .loopStopped rfl).tornOnce htorn

/-- A digest is torn down if and only if the bytes behind its frames are no frame. -/
theorem tornDown_digest (calm : m.Calm) (bytes : Bytes) :
    (m.digest bytes).tornDown = true ↔
      ∃ fault, Frame.cut (Frame.pieces m.settings.frameLimit bytes).2 m.settings.frameLimit =
        .error fault := by
  have heaten := (calm.after_receiveAll
    ((Frame.pieces m.settings.frameLimit bytes).1.map Frame.Piece.frame)).1
  unfold digest
  simp only
  split
  · rename_i hcut
    simp [heaten.up, hcut]
  · rename_i fault hcut
    refine ⟨fun _ => ⟨fault, hcut⟩, fun _ => ?_⟩
    generalize m.receiveAll _ = eaten at heaten ⊢
    have hup : (eaten.note (.malformed (.frame fault))).tornDown = false := heaten.up
    exact congrArg Ledger.tornDown (ledger_tearDown hup (.readFailed (.frame fault)))

/-- **What a session makes of the bytes of its peer does not depend on the chunks.**  Once the loop
has come to rest, everything but its intake is what it is after the digest of the bytes: the frames
in front were applied one after the other, on a connection that was there.  If what stands behind
them is no frame, the connection was torn down once, and otherwise it is still there. -/
theorem digests_run (side : Side) (settings : Settings) (deliveries : List Delivery) :
    let fresh := start side settings
    let offered := deliveries.flatMap Delivery.bytes
    let pieces := Frame.pieces settings.frameLimit offered
    let m := (run side settings (deliveries.map Delivery.op)).pump .keep
    m.turn = none ∧ m.withInlet {} = fresh.digest offered ∧
      (fresh.receiveAll (pieces.1.map Frame.Piece.frame)).Calm ∧ m.TornOnce ∧
      (m.tornDown = true ↔ ∃ fault, Frame.cut pieces.2 settings.frameLimit = .error fault) := by
  have calm := calm_start side settings
  obtain ⟨hpumped, hrest⟩ := (digesting_run side settings deliveries).pump calm
  have hfresh : (start side settings).withInlet {} = start side settings := by
    cases side <;> rfl
  have hsame := hpumped.eq_digest calm hrest
  rw [← digest_withInlet, hfresh] at hsame
  have htorn := tornOnce_digest side settings (deliveries.flatMap Delivery.bytes)
  have hdown := tornDown_digest calm (deliveries.flatMap Delivery.bytes)
  rw [← hsame] at htorn hdown
  exact ⟨hrest, hsame, (calm.after_receiveAll _).1, htorn, hdown⟩

end Mux

end StreamMux
