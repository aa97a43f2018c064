import StreamMux.Proofs.Session.Bounds
import StreamMux.Proofs.Session.Bypass
import StreamMux.Proofs.Session.Ignored

/-!
# A flood of data

The peer sends data for a stream that nobody reads.  Nothing holds the peer back, so at some time
there is no room, and the stream has to go.  What is left of it then is no matter of what else was
done: it is what the payloads, one after the other, make of the stream as it was.

* `Stream.flooded` — what payloads make of an open stream, and `Ledger.enqueued_flooded` — one more
  payload;
* `Mux.Strikes` — what one frame of a flood does, and `Mux.Flooded.strikes`;
* `Mux.Floods` — operations among which nobody uses the stream and the peer sends it data only, and
  `Mux.Flooded.runFrom` — what they make of the stream and what the peer is told;
* `Mux.contained_run` — a flood resets exactly its own stream, once, and only if there is no room.
-/

namespace StreamMux

/-! ### A flooded stream -/

namespace Stream

variable {stream : Stream} {payloads : List Bytes}

/-- The number of chunks that there is room for. -/
def room (stream : Stream) : Nat := stream.capacity - stream.queue.length

/-- What payloads that come in one after the other make of an open stream: those that there is room
for wait in order, the first one beyond resets the stream, and all others are lost. -/
def flooded (stream : Stream) (payloads : List Bytes) : Stream :=
  { stream with
    queue := stream.queue ++ payloads.take stream.room
    ending := if stream.room < payloads.length then some .reset else stream.ending }

@[simp] theorem flooded_nil (stream : Stream) : stream.flooded [] = stream := by
  simp [flooded]

theorem isOver_flooded (live : stream.isOver = false) (payloads : List Bytes) :
    (stream.flooded payloads).isOver = decide (stream.room < payloads.length) := by
  by_cases hfull : stream.room < payloads.length
  · rw [decide_eq_true hfull, isOver_iff]
    simp [flooded, hfull]
  · rw [decide_eq_false hfull]
    simp only [flooded, if_neg hfull]
    exact live

theorem state_flooded (live : stream.isOver = false) (payloads : List Bytes) :
    (stream.flooded payloads).state = if stream.room < payloads.length then .reset else .live := by
  by_cases hfull : stream.room < payloads.length
  · simp only [state, flooded, if_pos hfull]
    rfl
  · have hstate := state_eq_live_iff.mpr live
    rw [if_neg hfull, ← hstate]
    simp only [state, flooded, if_neg hfull]

theorem length_queue_flooded (stream : Stream) (payloads : List Bytes) :
    (stream.flooded payloads).queue.length =
      stream.queue.length + min stream.room payloads.length := by
  simp [flooded]

/-- A payload that there is room for waits behind the others. -/
theorem flooded_of_room (h : payloads.length < stream.room) (payload : Bytes) :
    stream.flooded (payloads ++ [payload]) =
      { stream.flooded payloads with queue := (stream.flooded payloads).queue ++ [payload] } := by
  have hall : (payloads ++ [payload]).length ≤ stream.room := by
    rw [List.length_append]
    exact h
  simp only [flooded, if_neg (Nat.not_lt.mpr hall), if_neg (Nat.not_lt.mpr h.le),
    List.take_of_length_le hall, List.take_of_length_le h.le, List.append_assoc]

theorem flooded_of_full (h : payloads.length = stream.room) (payload : Bytes) :
    stream.flooded (payloads ++ [payload]) =
      { stream.flooded payloads with ending := some .reset } := by
  have hmore : stream.room < (payloads ++ [payload]).length := by simp [h]
  simp only [flooded, if_pos hmore, List.take_append_of_le_length h.ge]

theorem flooded_of_past (h : stream.room < payloads.length) (payload : Bytes) :
    stream.flooded (payloads ++ [payload]) = stream.flooded payloads := by
  have hmore : stream.room < (payloads ++ [payload]).length := by
    rw [List.length_append]
    omega
  simp only [flooded, if_pos hmore, if_pos h, List.take_append_of_le_length h.le]

/-- Who reads a stream that a flood reset is given what waits, and then told of the reset. -/
theorem answer_flooded (live : stream.isOver = false) (h : stream.room < payloads.length)
    (n : Nat) : (stream.flooded payloads).answer n =
      (stream.flooded payloads).queue[n]?.elim (.fault (.streamReset stream.id)) .chunk := by
  have hsevered : (stream.flooded payloads).severed = false :=
    show stream.severed = false from severed_eq_false live
  have hstate : (stream.flooded payloads).state = .reset :=
    (state_flooded live payloads).trans (if_pos h)
  have hverdict : (stream.flooded payloads).verdict = .fault (.streamReset stream.id) := by
    rw [verdict, if_neg (by simp [hsevered]), if_pos hstate]
    rfl
  rw [answer, hverdict]
  cases (stream.flooded payloads).queue[n]? <;> rfl

end Stream

/-- What a flood begins with: an open stream that has a capacity and keeps to it. -/
structure Stream.Floodable (stream : Stream) : Prop where
  live : stream.isOver = false
  roomy : 0 < stream.capacity
  fits : stream.queue.length ≤ stream.capacity

namespace Ledger

variable {l : Ledger} {serial : Nat} {stream : Stream} {payloads : List Bytes} {payload : Bytes}

theorem update_stream (registry : Registry) {serial : Nat} (h : serial < registry.streams.length) :
    registry.update serial (registry.stream serial) = registry := by
  simp [Registry.update, Registry.stream, List.getD_eq_getElem?_getD, h]

theorem enqueued_of_room (live : (l.stream serial).isOver = false) (data : payload ≠ [])
    (room : (l.stream serial).queue.length < (l.stream serial).capacity) :
    l.enqueued serial payload = (l.push serial payload, []) := by
  rw [enqueued, if_neg (by simp [data, live]), if_pos room]

/-- Data without room resets the stream, which stays for what waits. -/
theorem Overfull.enqueued_eq (h : l.Overfull serial payload)
    (hfind : l.find? (l.stream serial).id = some serial) (waits : (l.stream serial).queue ≠ []) :
    l.enqueued serial payload =
      ((l.overflow serial).finish serial .reset, [(l.stream serial).farewell .reset]) := by
  have hlive : ((l.overflow serial).stream serial).isOver = false := h.live
  have hlt : serial < (l.overflow serial).size := Registry.lt_of_not_isOver h.live
  have hkept : (((l.overflow serial).finish serial .reset).stream serial).queue ≠ [] := by
    rw [finish, stream_put_self hlt]
    exact waits
  have hfound : ((l.overflow serial).finish serial .reset).find?
    ((l.overflow serial).stream serial).id = some serial := hfind
  rw [enqueued, if_neg (by simp [h.data, h.live]), if_neg (Nat.not_lt.mpr h.full), terminated,
    if_neg (by simp [hlive]), sweep_of_waits hfound hkept]
  rfl

theorem enqueued_of_isOver (hover : (l.stream serial).isOver = true) (payload : Bytes) :
    l.enqueued serial payload = (l, []) := if_pos (Or.inr hover)

theorem enqueued_flooded (floodable : stream.Floodable)
    (hstream : l.stream serial = stream.flooded payloads) (hfind : l.find? stream.id = some serial)
    (hlt : serial < l.size) (data : payload ≠ []) :
    (l.enqueued serial payload).1.registry =
        l.registry.update serial (stream.flooded (payloads ++ [payload])) ∧
      (l.enqueued serial payload).2 =
        if payloads.length = stream.room then [stream.farewell .reset] else [] := by
  have hover : (l.stream serial).isOver = decide (stream.room < payloads.length) := by
    rw [hstream, Stream.isOver_flooded floodable.live]
  have hlength : (l.stream serial).queue.length =
      stream.queue.length + min stream.room payloads.length := by
    rw [hstream, Stream.length_queue_flooded]
  have hcapacity : (l.stream serial).capacity = stream.capacity :=
    (congrArg Stream.capacity hstream).trans rfl
  have hfits := floodable.fits
  have hroomy := floodable.roomy
  rcases Nat.lt_trichotomy payloads.length stream.room with hroom | hfull | hpast
  · -- there is room
    have hshort : (l.stream serial).queue.length < (l.stream serial).capacity := by
      rw [hlength, hcapacity]
      simp only [Stream.room] at hroom ⊢
      omega
    rw [enqueued_of_room (hover.trans (decide_eq_false (Nat.not_lt.mpr hroom.le))) data hshort,
      if_neg hroom.ne, Stream.flooded_of_room hroom, ← hstream]
    exact ⟨rfl, rfl⟩
  · -- this is the first payload without room
    have hlong : (l.stream serial).queue.length = (l.stream serial).capacity := by
      rw [hlength, hcapacity]
      simp only [Stream.room] at hfull ⊢
      omega
    have hwaits : (l.stream serial).queue ≠ [] :=
      List.ne_nil_of_length_pos (by rw [hlong, hcapacity]; exact hroomy)
    have hfound : l.find? (l.stream serial).id = some serial := by
      rw [hstream]
      exact hfind
    have hoverfull : l.Overfull serial payload :=
      ⟨data, hover.trans (decide_eq_false (Nat.not_lt.mpr hfull.le)), hlong.ge⟩
    rw [hoverfull.enqueued_eq hfound hwaits, if_pos hfull, Stream.flooded_of_full hfull, ← hstream]
    exact ⟨rfl, congrArg (fun stream => [stream.farewell .reset]) hstream⟩
  · -- the stream was reset before
    rw [enqueued_of_isOver (hover.trans (decide_eq_true hpast)), if_neg hpast.ne',
      Stream.flooded_of_past hpast, ← hstream]
    exact ⟨(update_stream l.registry hlt).symm, rfl⟩

end Ledger

/-- Only the first payload without room makes one stream more that was reset. -/
theorem Registry.count_resets_flooded {registry : Registry} {serial : Nat} {stream : Stream}
    {payloads : List Bytes} (hlt : serial < registry.streams.length)
    (live : stream.isOver = false) (hstream : registry.stream serial = stream.flooded payloads)
    (payload : Bytes) :
    (registry.update serial (stream.flooded (payloads ++ [payload]))).endings.count (some .reset) =
      registry.endings.count (some .reset) + if payloads.length = stream.room then 1 else 0 := by
  rcases Nat.lt_trichotomy payloads.length stream.room with hroom | hfull | hpast
  · rw [if_neg hroom.ne, Stream.flooded_of_room hroom, endings_update_of_eq, Nat.add_zero]
    rw [hstream]
  · have hnone : (registry.stream serial).ending = none := by
      refine Stream.ending_eq_none ?_
      rw [hstream, Stream.isOver_flooded live, decide_eq_false (Nat.not_lt.mpr hfull.le)]
    rw [if_pos hfull, Stream.flooded_of_full hfull, ← hstream,
      count_endings_update hlt hnone .reset .reset, if_pos rfl]
  · rw [if_neg hpast.ne', Stream.flooded_of_past hpast, endings_update_of_eq, Nat.add_zero]
    rw [hstream]

namespace Mux

variable {m : Mux} {op : Op} {serial : Nat} {stream : Stream} {payloads : List Bytes}
  {frame : Frame}

/-! ### One frame -/

theorem eq_turn_of_applies (h : frame ∈ m.applies op) : op = .turn ∧ m.upcoming? = some frame := by
  cases op with
  | turn => exact ⟨rfl, by simpa [applies] using h⟩
  | _ => cases h

/-- A turn applies one frame at most. -/
theorem applies_eq (h : frame ∈ m.applies op) : m.applies op = [frame] := by
  obtain ⟨rfl, hupcoming⟩ := eq_turn_of_applies h
  simp [applies, hupcoming]

theorem kind_of_isMessage (message : frame.isMessage = true) :
    ∃ kind, frame.kind? = some kind ∧ kind.isMessage = true := by
  rcases is : frame.kind? with _ | kind
  · simp [Frame.isMessage, is] at message
  · exact ⟨kind, rfl, (frame.isMessage_eq is).symm.trans message⟩

/-- While the connection stays, data that comes in does what the ledger decides. -/
theorem perform_frame (sound : m.ledger.Sound) (up : m.isClosed = false)
    (up' : (m.perform op).1.tornDown = false) (happlies : frame ∈ m.applies op)
    (message : frame.isMessage = true) (room : ¬ m.ledger.Crowds frame) :
    ((m.perform op).1.ledger, m.outgoing op) = m.ledger.received frame := by
  obtain ⟨rfl, hupcoming⟩ := eq_turn_of_applies happlies
  obtain ⟨hid, out, hreceiving, hwritten⟩ := receives_turn hupcoming
  have htorn : m.ledger.tornDown = false := up_of_isClosed_eq_false up
  have hlate : frame.kind? ≠ some .newStream := by
    obtain ⟨kind, is, hmessage⟩ := kind_of_isMessage message
    rw [is]
    exact fun heq => (Kind.ending?_of_isMessage hmessage).2 (Option.some.inj heq)
  rw [up] at hreceiving
  have heq : ((m.perform .turn).1.ledger, out) = m.ledger.received frame :=
    hreceiving.eq_received sound hid htorn up' (fun hnew => absurd hnew hlate) room
  have hfits : ∀ answer ∈ out, answer.Fits := by
    rw [show out = (m.ledger.received frame).2 from congrArg Prod.snd heq]
    exact Ledger.fits_received sound htorn hid
  rw [outgoing_of_written hwritten hfits, heq]

theorem perform_data (sound : m.ledger.Sound) (up : m.isClosed = false)
    (up' : (m.perform op).1.tornDown = false) (happlies : frame ∈ m.applies op)
    (message : frame.isMessage = true) (hfind : m.ledger.find? frame.id = some serial) :
    ((m.perform op).1.ledger, m.outgoing op) = m.ledger.enqueued serial frame.payload := by
  have hroom : ¬ m.ledger.Crowds frame := fun hcrowds => by
    cases hcrowds.2.2.1.symm.trans hfind
  obtain ⟨kind, is, hmessage⟩ := kind_of_isMessage message
  obtain ⟨hopens, hlate⟩ := Kind.ending?_of_isMessage hmessage
  rw [perform_frame sound up up' happlies message hroom]
  simp only [Ledger.received, is, hopens, Ledger.delivered_of_some hfind, if_neg hlate]

/-! ### One frame of a flood -/

/-- Where a flood stands: a stream is what the payloads that came in made of it, and current. -/
structure Flooded (m : Mux) (serial : Nat) (stream : Stream) (payloads : List Bytes) : Prop where
  stream_eq : m.registry.stream serial = stream.flooded payloads
  current : m.registry.find? stream.id = some serial

/-- What one more frame does to a stream that `payloads` came in for, and to all others. -/
structure Strikes (m : Mux) (op : Op) (serial : Nat) (stream : Stream) (payloads : List Bytes)
    (payload : Bytes) : Prop where
  flooded : (m.perform op).1.Flooded serial stream (payloads ++ [payload])
  /-- The peer is told when there is no room for the first time. -/
  sends : m.outgoing op = if payloads.length = stream.room then [stream.farewell .reset] else []
  reset : (m.perform op).1.counters.reset =
    m.counters.reset + if payloads.length = stream.room then 1 else 0
  /-- All later frames count as ignored. -/
  ignored : (m.perform op).1.counters.ignored =
    m.counters.ignored + if stream.room < payloads.length then 1 else 0
  others : ∀ other ≠ serial, (m.perform op).1.registry.stream other = m.registry.stream other
  entries : (m.perform op).1.registry.entries = m.registry.entries

namespace Flooded

/-- What is over is not drained: it was full. -/
theorem queue_ne_nil (h : m.Flooded serial stream payloads) (floodable : stream.Floodable)
    (hover : (m.registry.stream serial).isOver = true) :
    (m.registry.stream serial).queue ≠ [] := by
  have hroomy := floodable.roomy
  have hfits := floodable.fits
  rw [h.stream_eq, Stream.isOver_flooded floodable.live, decide_eq_true_eq] at hover
  refine List.ne_nil_of_length_pos ?_
  rw [h.stream_eq, Stream.length_queue_flooded]
  simp only [Stream.room] at hover ⊢
  omega

theorem bypassed (h : m.Flooded serial stream payloads) (floodable : stream.Floodable)
    (sound : m.ledger.Sound) (unsevered : m.ledger.Unsevered)
    (bypasses : m.Bypasses op serial) : (m.perform op).1.Flooded serial stream payloads where
  stream_eq := (bypasses.stream_eq sound unsevered (sound.current h.current).1).trans h.stream_eq
  current := bypasses.find?_eq sound unsevered h.current (h.queue_ne_nil floodable)

theorem strikes (h : m.Flooded serial stream payloads) (floodable : stream.Floodable)
    (sound : m.ledger.Sound) (balanced : m.Balanced) (up : m.isClosed = false)
    (up' : (m.perform op).1.isClosed = false) (happlies : frame ∈ m.applies op)
    (hid : frame.id = stream.id) (message : frame.isMessage = true) (data : frame.payload ≠ []) :
    m.Strikes op serial stream payloads frame.payload := by
  have hlt := (sound.current h.current).1
  have hfind : m.ledger.find? frame.id = some serial := hid ▸ h.current
  have hdata := perform_data sound up (up_of_isClosed_eq_false up') happlies message hfind
  obtain ⟨hregistry, hsends⟩ := Ledger.enqueued_flooded floodable h.stream_eq h.current hlt data
  rw [← hdata] at hregistry hsends
  change (m.perform op).1.registry = _ at hregistry
  refine ⟨⟨?_, ?_⟩, hsends, ?_, ?_, ?_, ?_⟩
  · rw [hregistry]
    exact Registry.stream_update_self _ hlt
  · rw [hregistry]
    exact h.current
  · obtain ⟨out, haccounts⟩ := accounts_perform m op
    rw [(haccounts.balanced balanced).reset, balanced.reset, hregistry]
    exact Registry.count_resets_flooded hlt floodable.live h.stream_eq _
  · obtain ⟨kind, is, hmessage⟩ := kind_of_isMessage message
    rw [ignored_perform, applies_eq happlies, List.map_singleton, List.sum_singleton,
      Ledger.disregards_message is hmessage
        (Ledger.refuses_of_current (up_of_isClosed_eq_false up) hfind),
      Ledger.isDone_of_current hfind]
    have hover : (m.ledger.stream serial).isOver = true ↔ stream.room < payloads.length := by
      rw [show m.ledger.stream serial = _ from h.stream_eq, Stream.isOver_flooded floodable.live,
        decide_eq_true_eq]
    simp only [hover, data, ne_eq, not_false_eq_true, true_and]
  · intro other hne
    rw [hregistry]
    exact Registry.stream_update_of_ne _ _ hne
  · rw [hregistry]
    rfl

end Flooded

/-! ### One operation of a flood -/

/-- An operation may be part of a flood: nobody uses the stream, all that the peer sends for it is
data, and the connection is there afterwards, so that no write to the link failed. -/
structure Pours (m : Mux) (op : Op) (serial : Nat) : Prop where
  unused : m.used? op ≠ some serial
  data : ∀ frame ∈ m.applies op, frame.id = (m.registry.stream serial).id →
    frame.isMessage = true ∧ frame.payload ≠ []
  up : (m.perform op).1.isClosed = false

instance (m : Mux) (op : Op) (serial : Nat) : Decidable (m.Pours op serial) :=
  decidable_of_iff (m.used? op ≠ some serial ∧
      (∀ frame ∈ m.applies op, frame.id = (m.registry.stream serial).id →
        frame.isMessage = true ∧ frame.payload ≠ []) ∧ (m.perform op).1.isClosed = false)
    ⟨fun ⟨unused, data, up⟩ => ⟨unused, data, up⟩, fun h => ⟨h.unused, h.data, h.up⟩⟩

theorem Pours.up_before (pours : m.Pours op serial) (sound : m.ledger.Sound) :
    m.isClosed = false := by
  by_contra hclosed
  have hafter := (step sound op).keeps (by simpa using hclosed)
  rw [pours.up] at hafter
  cases hafter

/-- The payloads that an operation takes in under a number. -/
def payloadsIn (m : Mux) (op : Op) (id : UInt64) : List Bytes :=
  ((m.applies op).filter fun frame => frame.id = id).map Frame.payload

theorem payloadsIn_eq_nil {id : UInt64} (h : ∀ frame ∈ m.applies op, frame.id ≠ id) :
    m.payloadsIn op id = [] := by
  have hnone : (m.applies op).filter (fun frame => frame.id = id) = [] :=
    List.filter_eq_nil_iff.mpr fun frame hmem => by simpa using h frame hmem
  rw [payloadsIn, hnone, List.map_nil]

theorem payloadsIn_of_applies (h : frame ∈ m.applies op) :
    m.payloadsIn op frame.id = [frame.payload] := by
  simp [payloadsIn, applies_eq h]

/-- An operation of a flood takes it one payload further, or leaves it where it stands. -/
theorem Flooded.perform (h : m.Flooded serial stream payloads) (floodable : stream.Floodable)
    (sound : m.ledger.Sound) (unsevered : m.ledger.Unsevered) (balanced : m.Balanced)
    (pours : m.Pours op serial) :
    (m.perform op).1.Flooded serial stream (payloads ++ m.payloadsIn op stream.id) ∧
      (m.outgoing op).filter (fun frame => frame.id = stream.id) =
        if payloads.length ≤ stream.room ∧
            stream.room < (payloads ++ m.payloadsIn op stream.id).length
          then [stream.farewell .reset] else [] := by
  have hid : (m.registry.stream serial).id = stream.id :=
    (congrArg Stream.id h.stream_eq).trans rfl
  by_cases hit : ∃ frame ∈ m.applies op, frame.id = stream.id
  · -- a frame for the stream comes in
    obtain ⟨frame, happlies, hfor⟩ := hit
    obtain ⟨message, data⟩ := pours.data frame happlies (hfor.trans hid.symm)
    have hstrikes := h.strikes floodable sound balanced (pours.up_before sound) pours.up happlies
      hfor message data
    rw [← hfor, payloadsIn_of_applies happlies, hfor]
    refine ⟨hstrikes.flooded, ?_⟩
    have hfull : payloads.length = stream.room ↔
        payloads.length ≤ stream.room ∧ stream.room < (payloads ++ [frame.payload]).length := by
      rw [List.length_append, List.length_singleton]
      omega
    rw [hstrikes.sends]
    simp only [hfull]
    split
    · simp [Stream.farewell, Frame.ofKind]
    · rfl
  · -- whatever else is done passes the stream by
    have hothers : ∀ frame ∈ m.applies op, frame.id ≠ stream.id := fun frame hmem hfor =>
      hit ⟨frame, hmem, hfor⟩
    have hbypasses : m.Bypasses op serial := ⟨pours.unused, by rwa [hid], pours.up⟩
    have hsilent := hbypasses.silent sound unsevered h.current
    rw [payloadsIn_eq_nil hothers, List.append_nil, if_neg (by omega)]
    refine ⟨h.bypassed floodable sound unsevered hbypasses, ?_⟩
    exact List.filter_eq_nil_iff.mpr fun frame hmem => by simpa using hsilent frame hmem

/-! ### A whole flood -/

/-- Operations that may all be part of a flood. -/
def Floods (m : Mux) (flood : List Op) (serial : Nat) : Prop :=
  ∀ step ∈ m.trail flood, step.1.Pours step.2 serial

instance (m : Mux) (flood : List Op) (serial : Nat) : Decidable (m.Floods flood serial) :=
  inferInstanceAs (Decidable (∀ step ∈ m.trail flood, step.1.Pours step.2 serial))

/-- The payloads that operations take in under a number, oldest first. -/
def payloadsFor (m : Mux) (ops : List Op) (id : UInt64) : List Bytes :=
  (m.trail ops).flatMap fun step => step.1.payloadsIn step.2 id

theorem Floods.left {flood rest : List Op} (floods : m.Floods (flood ++ rest) serial) :
    m.Floods flood serial := fun step hmem =>
  floods step (trail_append m flood rest ▸ List.mem_append_left _ hmem)

theorem Floods.pours {flood rest : List Op} (floods : m.Floods (flood ++ op :: rest) serial) :
    (m.runFrom flood).Pours op serial :=
  floods (m.runFrom flood, op) (trail_append m flood _ ▸ List.mem_append_right _ List.mem_cons_self)

/-- A flood makes of the stream what its payloads make of it, and the peer is told at most once. -/
theorem Flooded.runFrom {flood : List Op} (h : m.Flooded serial stream payloads)
    (floodable : stream.Floodable) (sound : m.ledger.Sound) (unsevered : m.ledger.Unsevered)
    (balanced : m.Balanced) (floods : m.Floods flood serial) :
    (m.runFrom flood).Flooded serial stream (payloads ++ m.payloadsFor flood stream.id) ∧
      (m.sentBy flood).filter (fun frame => frame.id = stream.id) =
        if payloads.length ≤ stream.room ∧
            stream.room < (payloads ++ m.payloadsFor flood stream.id).length
          then [stream.farewell .reset] else [] := by
  induction flood generalizing m payloads with
  | nil =>
    simp only [payloadsFor, sentBy, trail, List.flatMap_nil, List.append_nil, List.filter_nil,
      runFrom_nil]
    exact ⟨h, (if_neg (by omega)).symm⟩
  | cons op flood ih =>
    obtain ⟨pours, hrest⟩ := List.forall_mem_cons.mp floods
    obtain ⟨hfirst, hsends⟩ := h.perform floodable sound unsevered balanced pours
    have hstep := step sound op
    obtain ⟨out, haccounts⟩ := accounts_perform m op
    obtain ⟨hlast, hsent⟩ := ih hfirst (hstep.sound sound) (hstep.unsevered unsevered)
      (haccounts.balanced balanced) hrest
    have hpayloads : m.payloadsFor (op :: flood) stream.id =
      m.payloadsIn op stream.id ++ (m.perform op).1.payloadsFor flood stream.id := rfl
    have hsentBy : m.sentBy (op :: flood) = m.outgoing op ++ (m.perform op).1.sentBy flood := rfl
    rw [runFrom_cons, hpayloads, ← List.append_assoc]
    refine ⟨hlast, ?_⟩
    rw [hsentBy, List.filter_append, hsends, hsent]
    simp only [List.length_append]
    -- the room is exceeded by the first operation, by a later one, or by none
    split_ifs <;> first | rfl | omega

/-- While the connection is there, what a flood reset is read to its end. -/
theorem Flooded.reads (h : m.Flooded serial stream payloads) (floodable : stream.Floodable)
    (sound : m.ledger.Sound) (unsevered : m.ledger.Unsevered)
    (more : stream.room < payloads.length) {later : List Op}
    (up : (m.runFrom later).tornDown = false) (reads : (m.runFrom later).ReadsFrom serial op) :
    ((m.runFrom later).perform op).2 = .reading
      ((stream.queue ++ payloads.take stream.room)[(m.readings later serial).length]?.elim
        (.fault (.streamReset stream.id)) .chunk) := by
  have hover : (m.registry.stream serial).isOver = true := by
    rw [h.stream_eq, Stream.isOver_flooded floodable.live, decide_eq_true more]
  rw [answer_runFrom sound unsevered (sound.current h.current).1 hover up reads, h.stream_eq,
    Stream.answer_flooded floodable.live more]
  rfl

/-- What a flood for a stream comes to, where `stream` is what it was before and `payloads` are what
the peer sends for it. -/
structure Contained (m : Mux) (flood : List Op) (serial : Nat) (stream : Stream)
    (payloads : List Bytes) : Prop where
  room : stream.room = m.settings.queueLimit - stream.queue.length
  /-- As many payloads as there is room for wait in order. -/
  queue : ((m.runFrom flood).registry.stream serial).queue =
    stream.queue ++ payloads.take stream.room
  /-- The stream is reset if there are more, and else still open. -/
  state : ((m.runFrom flood).registry.stream serial).state =
    if stream.room < payloads.length then .reset else .live
  current : (m.runFrom flood).registry.find? stream.id = some serial
  /-- Of the stream the peer is told nothing but the reset, and that once. -/
  sent : (m.sentBy flood).filter (fun frame => frame.id = stream.id) =
    if stream.room < payloads.length then [.ofKind stream.id stream.role.resetKind []] else []
  /-- What each single frame for the stream does. -/
  strikes : ∀ {first rest : List Op} {op : Op} {frame : Frame}, flood = first ++ op :: rest →
    frame ∈ (m.runFrom first).applies op → frame.id = stream.id →
      (m.runFrom first).Strikes op serial stream (m.payloadsFor first stream.id) frame.payload
  /-- The reads of a stream that was reset give what waits, and from then on the reset. -/
  reads : stream.room < payloads.length → ∀ {later : List Op} {op : Op},
    ((m.runFrom flood).runFrom later).tornDown = false →
      ((m.runFrom flood).runFrom later).ReadsFrom serial op →
        (((m.runFrom flood).runFrom later).perform op).2 = .reading
          ((stream.queue ++ payloads.take stream.room)[
            ((m.runFrom flood).readings later serial).length]?.elim
              (.fault (.streamReset stream.id)) .chunk)

theorem floodable_run {side : Side} {settings : Settings} {before : List Op}
    (live : ((run side settings before).registry.stream serial).isOver = false) :
    ((run side settings before).registry.stream serial).Floodable := by
  obtain ⟨hcapacity, hfits⟩ :=
    roomy_run side settings before serial (Registry.lt_of_not_isOver live)
  change ((run side settings before).registry.stream serial).capacity = _ at hcapacity
  refine ⟨live, ?_, ?_⟩
  · rw [hcapacity]
    exact Nat.lt_of_lt_of_le Nat.one_pos (Nat.le_max_right _ _)
  · rw [hcapacity]
    exact hfits

/-- **A flood resets exactly its own stream.**  In every run under valid settings, what the peer
sends for an open stream that nobody uses meanwhile waits in order as far as there is room.  If
there is more, then the first frame without room resets the stream, which is told to the peer and
counted once; all later ones are lost, and each is counted as ignored.  No frame for the stream
changes another one, and whoever reads the stream is given what waits and then told of the reset. -/
theorem contained_run (side : Side) {settings : Settings} (valid : settings.Valid)
    {before flood : List Op} {serial : Nat}
    (live : ((run side settings before).registry.stream serial).isOver = false)
    (floods : (run side settings before).Floods flood serial) :
    (run side settings before).Contained flood serial
      ((run side settings before).registry.stream serial)
      ((run side settings before).payloadsFor flood
        ((run side settings before).registry.stream serial).id) := by
  have hfloodable := floodable_run live
  have hsound := sound_run side settings before
  have hunsevered := unsevered_run side settings before
  have hbalanced := balanced_run side settings before
  have hbegins : (run side settings before).Flooded serial
      ((run side settings before).registry.stream serial) [] :=
    ⟨(Stream.flooded_nil _).symm, hsound.find?_of_live live⟩
  obtain ⟨⟨hstream, hcurrent⟩, hsent⟩ :=
    hbegins.runFrom hfloodable hsound hunsevered hbalanced floods
  simp only [List.nil_append, List.length_nil, Nat.zero_le, true_and] at hstream hsent
  have hsoundAfter := sound_run side settings (before ++ flood)
  have hunseveredAfter := unsevered_run side settings (before ++ flood)
  rw [run_append] at hsoundAfter hunseveredAfter
  refine ⟨?_, ?_, ?_, hcurrent, hsent, ?_, ?_⟩
  · have hcapacity := (roomy_run side settings before serial (Registry.lt_of_not_isOver live)).1
    have hpos : 1 ≤ (run side settings before).settings.queueLimit := by
      rw [settings_run]
      exact valid.queueLimit_pos
    exact congrArg (· - _) (hcapacity.trans (Nat.max_eq_left hpos))
  · exact congrArg Stream.queue hstream
  · rw [hstream]
    exact Stream.state_flooded live _
  · intro first rest op frame hflood happlies hid
    subst hflood
    -- each frame of the flood finds the stream as those before it left it
    have hpours := floods.pours
    have hfirst := (hbegins.runFrom hfloodable hsound hunsevered hbalanced floods.left).1
    obtain ⟨message, data⟩ := hpours.data frame happlies
      (hid.trans (congrArg Stream.id hfirst.stream_eq).symm)
    rw [← run_append] at *
    have hreached := sound_run side settings (before ++ first)
    exact hfirst.strikes hfloodable hreached (balanced_run side settings (before ++ first))
      (hpours.up_before hreached) hpours.up happlies hid message data
  · intro hmore later op
    exact Flooded.reads ⟨hstream, hcurrent⟩ hfloodable hsoundAfter hunseveredAfter hmore

/-- The peer opens two streams, and sends something for the first. -/
def twoOpened : List Op :=
  [.arrive [0, 0, 16, 0, 2, 1, 0xa0, 18, 1, 0xb0, 2, 1, 0xa1, 2, 1, 0xa2, 2, 1, 0xa3],
    .turn, .turn, .turn, .turn, .turn]

/-- Both streams are given data, and something is written to the second. -/
def bothFed : List Op := [.turn, .write 1 ⟨[0xc0], by decide⟩, .turn, .turn, .turn]

/-- Queues hold two chunks.  One payload waits already, and three more come in for the stream: one
waits, one resets the stream and one is lost. -/
theorem contained_beside_another :
    (run .listener { Settings.usual with queueLimit := 2 } twoOpened).payloadsFor bothFed 0 =
      [[0xa1], [0xa2], [0xa3]] ∧
    (run .listener { Settings.usual with queueLimit := 2 } twoOpened).Contained bothFed 0
      ((run .listener { Settings.usual with queueLimit := 2 } twoOpened).registry.stream 0)
      ((run .listener { Settings.usual with queueLimit := 2 } twoOpened).payloadsFor bothFed
        ((run .listener { Settings.usual with queueLimit := 2 } twoOpened).registry.stream 0).id) :=
  ⟨by decide +kernel,
    contained_run .listener (by decide) (by decide +kernel) (by decide +kernel)⟩

end Mux

end StreamMux
