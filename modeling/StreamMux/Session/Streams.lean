import StreamMux.Session.Basic
import StreamMux.Text.Quoted

/-!
# What users do with streams

Streams are opened on a session and then used through their serial numbers: `Mux.write`,
`Mux.terminate`, `Mux.read`, and `Mux.drop` for the handle.  `Mux.readById` reads the current stream
with a number.

A read that is never answered by `Reading.blocked` again has come to its end: `Reading.over` after
a close, a fault after a reset or when the connection is gone.
-/

namespace StreamMux

/-- All that can be seen of a handle, in one line. -/
def Handle.text (handle : Handle) (stream : Stream) : String :=
  let label := match handle.label with
    | none => "None"
    | some label => "Some(" ++ Text.quote label ++ ")"
  s!"StreamHandle \x7b id: {stream.id}, direction: {stream.role.label}, " ++
  s!"protocol_id: {label}, state: {stream.state.label} \x7d"

/-- What a read of a stream comes to. -/
inductive Reading where
  | chunk (chunk : Bytes)
  /-- Nothing yet; a reader that can wait does. -/
  | blocked
  /-- The stream was closed, and everything is read. -/
  | over
  | fault (fault : Fault)
  deriving DecidableEq, Repr

/-- The chunk of a reading for a reader that does not wait: it takes nothing yet and nothing any
more for the same. -/
def Reading.now : Reading → Except Fault (Option Bytes)
  | .chunk data => .ok (some data)
  | .blocked | .over => .ok none
  | .fault cause => .error cause

namespace Mux

/-- Puts `stream` in place of the one with a serial number. -/
def update (m : Mux) (serial : Nat) (stream : Stream) : Mux :=
  { m with registry := m.registry.update serial stream }

/-- Lets the current stream with a number go if it is over and drained. -/
def sweep (m : Mux) (id : UInt64) : Mux :=
  { m with registry := (m.registry.sweep id).1 }

/-! ### Opening -/

/-- Opens a stream: the place of its handle among all handles.  The stream is there before the peer
can answer on it, and goes again if the peer cannot be told of it. -/
def openStream (m : Mux) (label : Option String) : Mux × Except Fault Nat :=
  if m.isClosed then (m, .error .closed)
  else
    match m.ids.draw with
    | .error fault => (m, .error fault)
    | .ok (id, ids) =>
      let (registry, serial) := m.registry.beginLocal id m.settings.queueLimit
      match { m with ids, registry }.send (.ofKind id .newStream []) with
      | (m, .error fault) => ({ m with registry := m.registry.remove id }, .error fault)
      | (m, .ok _) =>
        let m := (m.count (·.bump .opened)).note (.opened id label)
        let handle : Handle := { serial, label }
        ({ m with handles := m.handles ++ [handle] }, .ok m.handles.length)

/-! ### Writing and ending -/

/-- Writes data to a stream: the number of bytes that went out. -/
def write (m : Mux) (serial : Nat) (data : Bytes) : Mux × Except Fault Nat :=
  let stream := m.registry.stream serial
  if m.isClosed || stream.severed then (m, .error .closed)
  else
    match stream.state with
    | .live => m.send (.ofKind stream.id stream.role.messageKind data)
    | .closed => (m, .error (.streamClosed stream.id))
    | .reset => (m, .error (.streamReset stream.id))

/-- Ends a stream from this side.  Only the end of an open stream is told to the peer. -/
def terminate (m : Mux) (serial : Nat) (ending : Ending) : Mux × Except Fault Unit :=
  let stream := m.registry.stream serial
  if stream.severed then (m, .error .closed)
  else
    match stream.terminate ending with
    | (_, false) => (m, .ok ())
    | (finished, true) =>
      let m := ((m.update serial finished).countEnding ending).note (.endedHere stream.id ending)
      let (m, result) := m.send (.ofKind stream.id (stream.role.endingKind ending) [])
      (m.sweep stream.id, result.map fun _ => ())

/-! ### Reading -/

def read (m : Mux) (serial : Nat) : Mux × Reading :=
  match (m.registry.stream serial).pop with
  | (stream, .chunk chunk) => (m.update serial stream, .chunk chunk)
  | (_, .empty) => (m, .blocked)
  | (stream, .over) =>
    let reading := if stream.severed then .fault .closed
      else if stream.state = .reset then .fault (.streamReset stream.id)
      else .over
    (m.sweep stream.id, reading)

/-- Reads the current stream with a number. -/
def readById (m : Mux) (id : UInt64) : Mux × Reading :=
  match m.registry.lookup id with
  | .error fault => (m, .fault fault)
  | .ok serial => m.read serial

/-- Reads a stream until it gives no chunk: the chunks, and what came instead of a further one. -/
def readAll (m : Mux) (serial : Nat) : Mux × List Bytes × Reading :=
  go (m.registry.stream serial).queue.length m
where
  /-- At most `count` chunks are read. -/
  go (count : Nat) (m : Mux) : Mux × List Bytes × Reading :=
    match count, m.read serial with
    | count + 1, (m, .chunk chunk) =>
      let (m, chunks, last) := go count m
      (m, chunk :: chunks, last)
    | _, (m, last) => (m, [], last)

/-! ### Letting go -/

/-- Nobody reads the stream any more; one that is over has no reason to stay. -/
def forget (m : Mux) (serial : Nat) : Mux :=
  let stream := m.registry.stream serial
  if stream.isOver && m.registry.find? stream.id == some serial then
    { m with registry := m.registry.remove stream.id }
  else m

def drop (m : Mux) (place : Nat) : Mux :=
  match m.handles[place]? with
  | none => m
  | some handle =>
    if handle.live then
      { m with handles := m.handles.set place { handle with live := false } }.forget handle.serial
    else m

end Mux

end StreamMux
