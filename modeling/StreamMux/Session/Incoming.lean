import StreamMux.Session.Streams

/-!
# What frames of the peer do

`Mux.receive` applies one frame of the peer to the session.  A frame that announces a stream, or
carries data for one, is bound to the current stream with its number, and begins a stream if there
is none (`Mux.bind`).  Streams that only carried data so far are pending until they are announced,
and there is a limit on them.  A frame that ends a stream never begins one.

Frames that find no stream, or one that is over, count as ignored.  No frame ever waits for a
reader: a stream whose queue is full is reset instead.  So is one whose handler cannot be started;
its handle goes with the handler that would have got it.
-/

namespace StreamMux

namespace Mux

/-! ### Binding -/

/-- The stream that a frame of the peer is for: its serial number, and whether the frame begins it.
-/
def bind (m : Mux) (id : UInt64) (announced : Bool) : Mux × Except Refusal (Nat × Bool) :=
  if m.tornDown then (m, .error .closed)
  else
    match m.registry.find? id with
    | some serial => (m, .ok (serial, false))
    | none =>
      if m.ids.owns id then (m, .error .ownNumber)
      else if !announced && m.settings.pendingLimit ≤ m.registry.pending.length then
        (m, .error .crowded)
      else
        let (registry, result) := m.registry.findOrBegin id m.settings.queueLimit
        ({ m with registry }, .ok result)

/-- The frame's number is refused.  A stream that would be pending beyond the limit is reset. -/
def turnAway (m : Mux) (id : UInt64) (kind : Kind) (refusal : Refusal) : Mux :=
  let m := match refusal with
    | .crowded =>
      match (m.note (.refused id refusal)).send (.ofKind id .resetAcceptor []) with
      | (m, .ok _) => m
      | (m, .error fault) => m.note (.resetNotSent id fault)
    | _ => m.note (.passedOver kind id refusal)
  m.count (·.bump .ignored)

/-! ### Effects -/

/-- Counts a stream of the peer as accepted, and makes a handle for it. -/
def takeUp (m : Mux) (id : UInt64) (serial : Nat) : Mux :=
  let handle : Handle := { serial, label := none }
  let m := (m.count (·.bump .accepted)).note (.accepted id)
  { m with handles := m.handles ++ [handle] }

/-- Calls the handler with a stream that the peer announced; tells whether it was still to be
accepted.  The stream is accepted even if the handler cannot be started; its handle is dropped then.
-/
def callHandler (m : Mux) (id : UInt64) (serial : Nat) : Mux × Except Fault Bool :=
  match m.registry.announce id with
  | (_, false) => (m, .ok false)
  | (registry, true) =>
    let place := m.handles.length
    let m := { m with registry }.takeUp id serial
    match m.conditions.failStart with
    | none => ({ m with arrivals := m.arrivals ++ [place] }, .ok true)
    | some text =>
      let m := { m with conditions := { m.conditions with failStart := none } }
      (m.drop place, .error (.system text))

/-- Resets a stream that cannot go on. -/
def cutShort (m : Mux) (serial : Nat) : Mux :=
  let stream := m.registry.stream serial
  match m.terminate serial .reset with
  | (m, .ok ()) => m
  | (m, .error fault) => m.note (.resetNotSent stream.id fault)

/-- A stream is announced: the handler is called with it, unless it was announced before. -/
def announce (m : Mux) (id : UInt64) (serial : Nat) : Mux :=
  match m.callHandler id serial with
  | (m, .ok true) => m
  | (m, .ok false) => (m.note (.announcedTwice id)).count (·.bump .ignored)
  | (m, .error fault) => (m.note (.notDispatched id fault)).cutShort serial

/-- Queues a payload; an empty one is nothing.  A stream without room is reset. -/
def enqueue (m : Mux) (serial : Nat) (payload : Bytes) : Mux :=
  if payload.isEmpty then m
  else
    let stream := m.registry.stream serial
    match stream.push payload with
    | (longer, .queued) => m.update serial longer
    | (_, .full) => (m.note (.queueFull stream.id m.settings.queueLimit)).cutShort serial
    | (_, .over) => (m.note (.dropped stream.state stream.id)).count (·.bump .ignored)

/-- The peer ends a stream. -/
def endByPeer (m : Mux) (id : UInt64) (ending : Ending) : Mux :=
  match m.registry.find? id with
  | none => (m.note (.unknownEnded ending id)).count (·.bump .ignored)
  | some serial =>
    match (m.registry.stream serial).terminate ending with
    | (_, false) => m.count (·.bump .ignored)
    | (finished, true) =>
      (((m.update serial finished).countEnding ending).note (.endedByPeer id ending)).sweep id

/-! ### Frames -/

/-- Applies a frame of a known kind. -/
def receiveKind (m : Mux) (kind : Kind) (id : UInt64) (payload : Bytes) : Mux :=
  match kind with
  | .newStream =>
    match m.bind id true with
    | (m, .error refusal) => m.turnAway id kind refusal
    | (m, .ok (serial, _)) => (m.announce id serial).enqueue serial payload
  | .messageAcceptor | .messageOpener =>
    match m.bind id false with
    | (m, .error refusal) => m.turnAway id kind refusal
    | (m, .ok (serial, isNew)) => (if isNew then m.note (.early id) else m).enqueue serial payload
  | .closeAcceptor | .closeOpener => m.endByPeer id .closed
  | .resetAcceptor | .resetOpener => m.endByPeer id .reset

/-- Applies a frame. -/
def receive (m : Mux) (frame : Frame) : Mux :=
  let m := match frame.kind? with
    | none => (m.note (.reservedFlag frame.flag frame.id)).count (·.bump .ignored)
    | some kind =>
      let m := m.note (.received kind frame.id frame.payload.length)
      m.receiveKind kind frame.id frame.payload
  m.count (·.frameIn frame.payload.length frame.wireSize)

end Mux

end StreamMux
