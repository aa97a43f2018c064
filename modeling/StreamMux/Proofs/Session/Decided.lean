import StreamMux.Proofs.Session.Disregard
import StreamMux.Proofs.Session.Verdict

/-!
# What the ledger alone decides

As long as the link takes what is written, nothing but the ledger decides what an operation does:
which frames go out, what it answers, and what becomes of the ledger.

* `Ledger.opened`, `Ledger.used`, `Ledger.received` — what becomes of a ledger when a stream is
  opened, a handle is used or a frame comes in, and the frames that go out;
* `Ledger.replies` — what the use of a handle is answered;
* `Ledger.Receiving.eq_received` — of the outcomes of a frame this is the one without teardown.
-/

namespace StreamMux

namespace Mux

/-- What a user does with a handle. -/
inductive Usage where
  | write (payload : Payload)
  | finish (ending : Ending)
  | read
  | drop

def Usage.op (place : Nat) : Usage → Op
  | write payload => .write place payload
  | finish ending => .finish place ending
  | read => .read place
  | drop => .drop place

end Mux

/-! ### What the ledger alone decides -/

namespace Stream

/-- What a write to the stream is answered while the connection is there. -/
def receipt (stream : Stream) (data : Bytes) : Except Fault Nat :=
  if stream.severed then .error .closed
  else match stream.state with
    | .live => .ok (stream.parcel data).wire.length
    | .closed => .error (.streamClosed stream.id)
    | .reset => .error (.streamReset stream.id)

/-- What a read of the stream is answered. -/
def reading (stream : Stream) : Reading :=
  match stream.queue with
  | chunk :: _ => .chunk chunk
  | [] => if stream.isOver then stream.verdict else .blocked

/-- What the stream answers its user while the connection is there. -/
def replies (stream : Stream) : Mux.Usage → Mux.Answer
  | .write payload => .size (stream.receipt payload.data)
  | .finish _ => .done (if stream.severed then .error .closed else .ok ())
  | .read => .reading stream.reading
  | .drop => .nothing

end Stream

namespace Ledger

variable {l l' : Ledger} {gone fails : Bool} {out : List Frame}

/-- A stream is opened. -/
def opened (l : Ledger) (label : Option String) : Ledger × List Frame :=
  match l.ids.draw with
  | .error _ => (l, [])
  | .ok (id, ids) => ((l.register id ids).hold l.size label, [.ofKind id .newStream []])

/-- A stream is ended from this side. -/
def terminated (l : Ledger) (serial : Nat) (ending : Ending) : Ledger × List Frame :=
  if (l.stream serial).isOver then (l, [])
  else ((l.finish serial ending).sweep (l.stream serial).id, [(l.stream serial).farewell ending])

/-- A payload comes in for a stream. -/
def enqueued (l : Ledger) (serial : Nat) (payload : Bytes) : Ledger × List Frame :=
  if payload = [] ∨ (l.stream serial).isOver then (l, [])
  else if (l.stream serial).queue.length < (l.stream serial).capacity then
    (l.push serial payload, [])
  else (l.overflow serial).terminated serial .reset

/-- A stream is read. -/
def taken (l : Ledger) (serial : Nat) : Ledger :=
  match (l.stream serial).queue with
  | _ :: queue => l.pop serial queue
  | [] => if (l.stream serial).isOver then l.sweep (l.stream serial).id else l

/-- The handle at a place, if it is still held. -/
def holder? (l : Ledger) (place : Nat) : Option Handle := l.handles[place]?.filter (·.live)

/-- The handle at a place is used. -/
def used (l : Ledger) (place : Nat) (usage : Mux.Usage) : Ledger × List Frame :=
  match l.holder? place, usage with
  | none, _ => (l, [])
  | some { serial, .. }, .write payload =>
      (l, if (l.stream serial).isOver then [] else [(l.stream serial).parcel payload.data])
  | some { serial, .. }, .finish ending => l.terminated serial ending
  | some { serial, .. }, .read => (l.taken serial, [])
  | some handle, .drop => (l.drop place handle, [])

/-- What the use of the handle at a place is answered. -/
def replies (l : Ledger) (place : Nat) (usage : Mux.Usage) : Mux.Answer :=
  match l.holder? place with
  | none => .noHandle
  | some handle => (l.stream handle.serial).replies usage

/-- The peer ends the stream with a number. -/
def endedByPeer (l : Ledger) (id : UInt64) (ending : Ending) : Ledger :=
  match l.find? id with
  | none => l
  | some serial =>
    if (l.stream serial).isOver then l else (l.finish serial ending).sweep id

/-- The current stream with a number, which begins if there is none. -/
def bound (l : Ledger) (id : UInt64) : Ledger × Nat :=
  match l.find? id with
  | none => (l.welcome id, l.size)
  | some serial => (l, serial)

/-- A stream is announced, and accepted if it waits. -/
def announced (l : Ledger) (id : UInt64) (serial : Nat) : Ledger :=
  if id ∈ l.registry.pending then l.accept id serial else l

/-- The stream for which data or an announcement comes in stands ready. -/
def readied (l : Ledger) (kind : Kind) (id : UInt64) : Ledger :=
  if kind = .newStream then (l.bound id).1.announced id (l.bound id).2 else (l.bound id).1

/-- Data comes in for a number, or an announcement. -/
def delivered (l : Ledger) (kind : Kind) (id : UInt64) (payload : Bytes) : Ledger × List Frame :=
  if (l.find? id).isNone && l.ids.owns id then (l, [])
  else (l.readied kind id).enqueued (l.bound id).2 payload

/-- A frame of the peer comes in, and begins no pending stream too many. -/
def received (l : Ledger) (frame : Frame) : Ledger × List Frame :=
  match frame.kind? with
  | none => (l, [])
  | some kind =>
    match kind.ending? with
    | some ending => (l.endedByPeer frame.id ending, [])
    | none => l.delivered kind frame.id frame.payload

/-! ### The streams that are concerned -/

variable {s : UInt64} {serial : Nat}

/-- A serial number is that of a stream with a number. -/
def Of (l : Ledger) (s : UInt64) (serial : Nat) : Prop :=
  serial < l.size ∧ (l.stream serial).id = s

theorem Sound.of_find? (sound : l.Sound) (h : l.find? s = some serial) : l.Of s serial :=
  sound.current h

theorem Sound.of_bound (sound : l.Sound) (s : UInt64) : (l.bound s).1.Of s (l.bound s).2 := by
  rw [bound]
  split
  · refine ⟨?_, ?_⟩
    · rw [size_welcome]
      exact Nat.lt_succ_self _
    · rw [stream_welcome_self]
      rfl
  · rename_i hfind
    exact sound.of_find? hfind

theorem of_announced (h : l.Of s serial) (id : UInt64) (other : Nat) :
    (l.announced id other).Of s serial := by
  rw [announced]
  split <;> exact h

theorem of_readied (h : (l.bound s).1.Of s serial) (kind : Kind) :
    (l.readied kind s).Of s serial := by
  rw [readied]
  split
  · exact of_announced h ..
  · exact h

theorem Sound.readied (sound : l.Sound) (up : l.tornDown = false)
    (admitted : ¬ ((l.find? s).isNone && l.ids.owns s) = true) (hid : s ≤ Header.maxId)
    (kind : Kind) : (l.readied kind s).Sound := by
  obtain ⟨hbound, hfind⟩ : (l.bound s).1.Sound ∧ (l.bound s).1.find? s = some (l.bound s).2 := by
    rw [bound]
    split
    · rename_i hnone
      refine ⟨sound.welcome up hnone (by simpa [hnone] using admitted) hid, ?_⟩
      rw [find?_welcome, if_pos rfl]
    · rename_i hsome
      exact ⟨sound, hsome⟩
  rw [Ledger.readied, announced]
  split
  · split
    · rename_i hpending
      exact hbound.accept hpending hfind
    · exact hbound
  · exact hbound

/-! ### Frames that go out -/

theorem fits_terminated (sound : l.Sound) (serial : Nat) (ending : Ending) :
    ∀ frame ∈ (l.terminated serial ending).2, frame.Fits := by
  rw [terminated]
  split
  · simp
  · rename_i hover
    have hlive : (l.stream serial).isOver = false := by simpa using hover
    intro frame hmem
    rw [List.mem_singleton.mp hmem]
    exact ⟨sound.id_le (Registry.lt_of_not_isOver hlive), Frame.flag_le_of_kind _,
      by simp [Stream.farewell, Frame.ofKind]⟩

theorem fits_enqueued (sound : l.Sound) (serial : Nat) (payload : Bytes) :
    ∀ frame ∈ (l.enqueued serial payload).2, frame.Fits := by
  rw [enqueued]
  split
  · simp
  · split
    · simp
    · have hsound : (l.overflow serial).Sound := { sound with }
      exact fits_terminated hsound serial .reset

theorem fits_opened (l : Ledger) (label : Option String) :
    ∀ frame ∈ (l.opened label).2, frame.Fits := by
  rw [opened]
  split
  · simp
  · rename_i hdraw
    intro frame hmem
    rw [List.mem_singleton.mp hmem]
    exact ⟨(draw_eq hdraw).2.1, Frame.flag_le_of_kind _, by simp [Frame.ofKind]⟩

theorem fits_used (sound : l.Sound) (place : Nat) (usage : Mux.Usage) :
    ∀ frame ∈ (l.used place usage).2, frame.Fits := by
  unfold used
  rcases l.holder? place with _ | handle
  · simp
  · cases usage with
    | write payload =>
      simp only
      split
      · simp
      · rename_i hover
        have hlive : (l.stream handle.serial).isOver = false := by simpa using hover
        intro frame hmem
        rw [List.mem_singleton.mp hmem]
        exact ⟨sound.id_le (Registry.lt_of_not_isOver hlive), Frame.flag_le_of_kind _,
          payload.length_lt⟩
    | finish ending => exact fits_terminated sound handle.serial ending
    | read => simp
    | drop => simp

theorem fits_received (sound : l.Sound) (up : l.tornDown = false) {frame : Frame}
    (hid : frame.id ≤ Header.maxId) : ∀ answer ∈ (l.received frame).2, answer.Fits := by
  rw [received]
  split
  · simp
  · split
    · simp
    · rw [delivered]
      split
      · simp
      · rename_i hadmitted
        exact fits_enqueued (sound.readied up hadmitted hid _) _ _

/-! ### The outcomes listed before -/

/-- Nothing is torn down: then a stream that is open is reset in one way. -/
theorem Cutting.eq_terminated {serial : Nat} (h : l.Cutting false serial out l')
    (hid : (l.stream serial).id ≤ Header.maxId) (live : (l.stream serial).isOver = false)
    (up : l'.tornDown = false) : (l', out) = l.terminated serial .reset := by
  rw [terminated, if_neg (by simp [live])]
  cases h with
  | idle isOver => simp [live] at isOver
  | told live up => rfl
  | untold live why =>
    rcases why with hgone | ⟨fault, hfault⟩
    · cases hgone
    · rw [Stream.farewell, Frame.encode_ofKind hid] at hfault
      cases hfault
  | torn live up' => cases up

theorem Queueing.eq_enqueued {serial : Nat} {payload : Bytes}
    (h : l.Queueing false serial payload out l') (hid : (l.stream serial).id ≤ Header.maxId)
    (up : l'.tornDown = false) : (l', out) = l.enqueued serial payload := by
  unfold enqueued
  cases h with
  | idle why => rw [if_pos why]
  | queued data live room =>
    rw [if_neg (by simp [data, live]), if_pos room]
  | full data live full cutting =>
    rw [if_neg (by simp [data, live]), if_neg (Nat.not_lt.mpr full)]
    exact cutting.eq_terminated hid live up

theorem delivered_of_none {kind : Kind} {id : UInt64} (new : l.find? id = none)
    (foreign : l.ids.owns id = false) (payload : Bytes) :
    l.delivered kind id payload =
      (if kind = .newStream then (l.welcome id).accept id l.size else l.welcome id).enqueued l.size
        payload := by
  have hpending : id ∈ (l.welcome id).registry.pending :=
    List.mem_append_right _ (List.mem_singleton_self id)
  simp only [delivered, readied, bound, new, foreign, Option.isNone_none, Bool.and_false,
    Bool.false_eq_true, if_false, announced, if_pos hpending]

theorem delivered_of_some {kind : Kind} {id : UInt64} {serial : Nat}
    (current : l.find? id = some serial) (payload : Bytes) :
    l.delivered kind id payload =
      (if kind = .newStream then l.announced id serial else l).enqueued serial payload := by
  simp only [delivered, readied, bound, current, Option.isNone_some, Bool.false_and,
    Bool.false_eq_true, if_false]

/-- Nothing is torn down, no handler fails to start, and no pending stream is one too many: then a
frame has one outcome. -/
theorem Receiving.eq_received {frame : Frame} (h : l.Receiving false fails frame out l')
    (sound : l.Sound) (hid : frame.id ≤ Header.maxId) (up : l.tornDown = false)
    (up' : l'.tornDown = false) (starts : frame.kind? = some .newStream → fails = false)
    (room : ¬ l.Crowds frame) : (l', out) = l.received frame := by
  have hcurrent : ∀ {serial : Nat}, l.find? frame.id = some serial →
      (l.stream serial).id ≤ Header.maxId := fun hfind => (sound.current hfind).2 ▸ hid
  have hnew : ((l.welcome frame.id).stream l.size).id ≤ Header.maxId := by
    rw [stream_welcome_self]
    exact hid
  cases h with
  | reserved kind => simp only [received, kind]
  | refused is opens why =>
    rcases why with htorn | ⟨new, own⟩
    · rw [up] at htorn
      cases htorn
    · simp [received, is, opens, delivered, new, own]
  | crowded is message _ new foreign sending full =>
    exact absurd ⟨(frame.isMessage_eq is).trans message, up, new, foreign, full⟩ room
  | began is _ new foreign dispatching =>
    obtain rfl := starts is
    rw [dispatching.queueing.eq_enqueued hnew up']
    simp only [received, is, Kind.ending?, delivered_of_none new foreign, if_true]
  | announced is _ current pending dispatching =>
    obtain rfl := starts is
    rw [dispatching.queueing.eq_enqueued (hcurrent current) up']
    simp only [received, is, Kind.ending?, delivered_of_some current, if_true,
      Ledger.announced, if_pos pending]
  | repeated is _ current accepted queueing =>
    rw [queueing.eq_enqueued (hcurrent current) up']
    simp only [received, is, Kind.ending?, delivered_of_some current, if_true,
      Ledger.announced, if_neg accepted]
  | early is message _ new foreign queueing room =>
    obtain ⟨hopens, hdata⟩ := Kind.ending?_of_isMessage message
    rw [queueing.eq_enqueued hnew up']
    simp only [received, is, hopens, delivered_of_none new foreign, if_neg hdata]
  | data is message _ current queueing =>
    obtain ⟨hopens, hdata⟩ := Kind.ending?_of_isMessage message
    rw [queueing.eq_enqueued (hcurrent current) up']
    simp only [received, is, hopens, delivered_of_some current, if_neg hdata]
  | lost is ends isOver =>
    simp only [received, is, ends, endedByPeer]
    split
    · rfl
    · rename_i serial hfind
      rw [if_pos (isOver serial hfind)]
  | ended is ends current live =>
    simp only [received, is, ends, endedByPeer, current, live, Bool.false_eq_true, if_false]

end Ledger

/-- An operation with a handle goes through if the handle is still held. -/
theorem Mux.withHandle_eq (m : Mux) (place : Nat) (f : Nat → Mux × Answer) :
    m.withHandle place f =
      match m.ledger.holder? place with
      | some handle => f handle.serial
      | none => (m, .noHandle) := by
  unfold Mux.withHandle Ledger.holder?
  change _ = match m.handles[place]?.filter (·.live) with
    | some handle => f handle.serial
    | none => (m, .noHandle)
  rcases m.handles[place]? with _ | ⟨serial, label, _ | _⟩ <;> rfl

end StreamMux
