import StreamMux.Proofs.Session.Counting
import StreamMux.Proofs.Session.Run

/-!
# What a session does of its own accord

Three kinds of operations change the ledger of a session.  A turn of the loop may apply a frame of
the peer (`Ledger.Receiving`), and a user may read a chunk.  Everything else is an act of this side:
a user opens, ends or drops a stream, or the connection goes away.  `Ledger.Act` lists these acts,
each with everything that it does to the ledger.

* `Mux.acts` — what operations of which kind are acts;
* `Mux.outcome` — an operation is an act, a chunk that is read, or a frame that is applied.
-/

namespace StreamMux

namespace Ledger

variable {l l' : Ledger} {gone fails : Bool} {out : List Frame}

/-- What this side may do to a ledger without a frame of the peer. -/
inductive Act : Ledger → Ledger → Prop where
  | none {l : Ledger} : Act l l
  | opened {l : Ledger} {id : UInt64} {ids : Ids} (label : Option String)
      (up : l.tornDown = false) (draw : l.ids.draw = .ok (id, ids)) :
      Act l ((l.register id ids).hold l.size label)
  /-- A stream is taken up, and the connection goes away before the peer is told of it. -/
  | openTorn {l : Ledger} {id : UInt64} {ids : Ids} (up : l.tornDown = false)
      (draw : l.ids.draw = .ok (id, ids)) : Act l (l.register id ids).tear
  | tear {l : Ledger} : Act l l.tear
  | finish {l : Ledger} {serial : Nat} (ending : Ending)
      (live : (l.stream serial).isOver = false) :
      Act l ((l.finish serial ending).sweep (l.stream serial).id)
  /-- A stream ends, and the connection goes away before the peer is told of it. -/
  | finishTorn {l : Ledger} {serial : Nat} (ending : Ending)
      (live : (l.stream serial).isOver = false) : Act l (l.finish serial ending).tear
  /-- A reader finds the end of a stream. -/
  | sweep {l : Ledger} (id : UInt64) : Act l (l.sweep id)
  | drop {l : Ledger} {place : Nat} {handle : Handle}
      (given : l.handles[place]? = some handle) : Act l (l.drop place handle)

theorem Act.of_eq (h : l' = l) : l.Act l' := h ▸ .none

theorem Sending.acts {frame : Frame} (h : l.Sending gone frame out l') : l.Act l' := by
  cases h with
  | refused why => exact .none
  | sent up => exact .none
  | torn up => exact .tear

theorem Cutting.acts {serial : Nat} (h : l.Cutting gone serial out l') : l.Act l' := by
  cases h with
  | idle isOver => exact .none
  | told live up => exact .finish .reset live
  | untold live why => exact .finish .reset live
  | torn live up => exact .finishTorn .reset live

end Ledger

namespace Mux

variable {m m' : Mux} {serial : Nat}

/-! ### Operations of a user -/

theorem Opens.acts {label : Option String} {result : Mux × Except Fault Nat}
    (h : m.Opens label result) : m.ledger.Act result.1.ledger := by
  cases h with
  | refused fault => exact .none
  | opened up draw passes ledger =>
    rw [ledger]
    exact .opened label (up_of_isClosed_eq_false up) draw
  | torn fault up draw passes ledger =>
    rw [ledger]
    exact .openTorn (up_of_isClosed_eq_false up) draw

theorem Terminates.acts {ending : Ending} {result : Mux × Except Fault Unit}
    (h : m.Terminates serial ending result) : m.ledger.Act result.1.ledger := by
  cases h with
  | idle result isOver => exact .none
  | told live up passes ledger =>
    rw [ledger]
    exact .finish ending live
  | untold fault live why passes ledger =>
    rw [ledger]
    exact .finish ending live
  | torn fault live up passes ledger =>
    rw [ledger]
    exact .finishTorn ending live

theorem Writes.acts {data : Bytes} {result : Mux × Except Fault Nat}
    (h : m.Writes serial data result) : m.ledger.Act result.1.ledger := by
  cases h with
  | refused fault => exact .none
  | written size live up passes ledger => exact .of_eq ledger
  | torn fault up passes ledger =>
    rw [ledger]
    exact .tear

theorem acts_tearDown (m : Mux) (cause : Cause) : m.ledger.Act (m.tearDown cause).ledger := by
  by_cases htorn : m.tornDown = true
  · rw [tearDown_of_torn htorn]
    exact .none
  · rw [ledger_tearDown (by simpa using htorn)]
    exact .tear

theorem acts_withHandle {place : Nat} {f : Nat → Mux × Answer}
    (h : ∀ handle, m.handles[place]? = some handle → handle.live = true →
      m.ledger.Act (f handle.serial).1.ledger) :
    m.ledger.Act (m.withHandle place f).1.ledger :=
  withHandle_ind (P := fun after => m.ledger.Act after.ledger) .none h

/-! ### All operations -/

theorem Quiet.acts (h : m.Quiet m') : m.ledger.Act m'.ledger := by
  cases h with
  | idle short => exact .none
  | fed waiting read => exact .none
  | stopped conditions fault gone =>
    rcases (stops { m with conditions } fault gone).2 with ⟨-, heq⟩ | ⟨-, heq⟩
    · exact .of_eq heq
    · rw [heq]
      exact .tear

/-- Whatever is neither a turn of the loop nor a read is an act. -/
theorem acts {op : Op} (hturn : op ≠ .turn) (hread : ∀ place, op ≠ .read place)
    (hnumber : ∀ id, op ≠ .readById id) : m.ledger.Act (m.perform op).1.ledger := by
  cases op with
  | turn => exact absurd rfl hturn
  | read place => exact absurd rfl (hread place)
  | readById id => exact absurd rfl (hnumber id)
  | openStream label => exact (opens m label).acts
  | write place payload => exact acts_withHandle fun handle _ _ => (writes m handle.serial _).acts
  | finish place ending =>
    exact acts_withHandle fun handle _ _ => (terminates m handle.serial _).acts
  | drop place =>
    refine acts_withHandle fun handle hplace hlive => ?_
    rw [ledger_drop hplace hlive]
    exact .drop hplace
  | send frame =>
    obtain ⟨out, l, hsending, hleads⟩ := sends_leads m frame
    simp only [perform]
    rw [hleads.ledger]
    exact hsending.acts
  | close => exact m.acts_tearDown .closedHere
  | arrive chunk =>
    simp only [perform]
    split <;> exact .none
  | readFar size => exact .none
  | closeFar => exact .none
  | closeLink => exact .of_eq m.shut_keeps.2.1
  | resetLink => exact .none
  | adjust conditions => exact .none

/-- What an operation comes to, as far as the ledger tells. -/
inductive Outcome (m : Mux) (op : Op) (l : Ledger) : Prop where
  | acts (act : m.ledger.Act l)
  | pops {serial : Nat} {chunk : Bytes} {queue : List Bytes}
      (front : (m.ledger.stream serial).queue = chunk :: queue)
      (ledger : l = m.ledger.pop serial queue)
  | receives {frame : Frame} {out : List Frame} (turn : op = .turn)
      (upcoming : m.upcoming? = some frame)
      (receiving : m.ledger.Receiving m.isClosed m.conditions.failStart.isSome frame out l)

theorem Reads.outcome {result : Mux × Reading} (h : m.Reads serial result) (op : Op) :
    m.Outcome op result.1.ledger := by
  cases h with
  | chunk front passes ledger => exact .pops front ledger
  | blocked live drained => exact .acts .none
  | ended isOver drained verdict passes ledger =>
    rw [ledger]
    exact .acts (.sweep _)

/-- A turn receives the upcoming frame, and writes what the frame is answered with. -/
theorem receives_turn {frame : Frame} (h : m.upcoming? = some frame) :
    frame.id ≤ Header.maxId ∧ ∃ out,
      m.ledger.Receiving m.isClosed m.conditions.failStart.isSome frame out
        (m.perform .turn).1.ledger ∧
        (m.perform .turn).1.written = m.written ++ out.map Frame.wire := by
  rcases hturn : m.turn with _ | after
  · cases (upcoming?_of_turn_eq_none hturn).symm.trans h
  have hperform : (m.perform .turn).1 = after := by simp [perform, hturn]
  rcases @turn_cases m after 0 hturn with ⟨other, rest, hupcoming, hcut, rfl⟩ | ⟨hnone, -⟩
  · obtain rfl := Option.some.inj (hupcoming.symm.trans h)
    obtain ⟨out, l, hreceiving, hleads⟩ :=
      receives { m with assembler := ⟨rest⟩, loop := .ready } other
    rw [← hperform] at hleads
    rw [← hleads.ledger] at hreceiving
    exact ⟨(Frame.fits_of_cut hcut).1.id_le, out, hreceiving, hleads.passes.written⟩
  · cases hnone.symm.trans h

/-- Without an upcoming frame a turn is quiet, if there is one. -/
theorem quiet_perform_turn (h : m.upcoming? = none) :
    (m.perform .turn).1 = m ∨ m.Quiet (m.perform .turn).1 := by
  rcases hturn : m.turn with _ | after
  · exact Or.inl (by simp [perform, hturn])
  · have hperform : (m.perform .turn).1 = after := by simp [perform, hturn]
    exact Or.inr (hperform ▸ quiet_turn hturn h)

theorem outcome_turn (m : Mux) : m.Outcome .turn (m.perform .turn).1.ledger := by
  rcases hupcoming : m.upcoming? with _ | frame
  · rcases quiet_perform_turn hupcoming with heq | hquiet
    · rw [heq]
      exact .acts .none
    · exact .acts hquiet.acts
  · obtain ⟨-, out, hreceiving, -⟩ := receives_turn hupcoming
    exact .receives rfl hupcoming hreceiving

/-- An operation is an act of this side, a chunk that is read, or a turn that applies a frame. -/
theorem outcome (m : Mux) (op : Op) : m.Outcome op (m.perform op).1.ledger := by
  cases op with
  | turn => exact m.outcome_turn
  | read place =>
    rcases m.withHandle_cases place fun serial => ((m.read serial).1, .reading (m.read serial).2)
      with ⟨handle, -, -, heq⟩ | heq
    · simp only [perform, heq]
      exact (reads m handle.serial).outcome _
    · simp only [perform, heq]
      exact .acts .none
  | readById id =>
    simp only [perform, readById]
    split
    · exact .acts .none
    · exact (reads m _).outcome _
  | _ => exact .acts (acts (by simp) (by simp) (by simp))

end Mux

end StreamMux
