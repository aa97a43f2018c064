import StreamMux.Frame.Assembler
import StreamMux.Stream.Ids
import StreamMux.Registry
import StreamMux.Settings
import StreamMux.Counters
import StreamMux.Note

/-!
# Sessions

A session is one side of a multiplexed connection: its streams, the handles that it gave out, its
counters, and the loop that takes frames off the link.  A session and the link under it together are
a `Mux`; all operations are functions on that.

This module holds what every operation is made of: the two ways to touch the link (`Mux.transmit`,
`Mux.shut`), sending one frame (`Mux.send`) and tearing the connection down (`Mux.tearDown`), which
happens once at most.

Each operation of a user, each frame that the loop applies and each teardown is one step, and steps
follow one another.  What other threads do in the middle of one is not described: between emptying
the table and severing what was in it, or between asking whether the connection is gone and writing.
-/

namespace StreamMux

/-! ### The pieces of a session -/

/-- The conditions under which a session works: its reads of the link may be held up, a wait may run
out, and the next use of the link or the next start of a handler may fail. -/
structure Conditions where
  /-- Reads wait, whatever is there, until this end is closed. -/
  paused : Bool := false
  /-- The number of waits that will run out. -/
  timeouts : Nat := 0
  failRead : Option LinkFault := none
  failWrite : Option LinkFault := none
  failClose : Option LinkFault := none
  /-- No handler can be started; the text is the system's. -/
  failStart : Option String := none
  deriving DecidableEq, Repr

/-- Where the loop stands. -/
inductive LoopState where
  /-- About to look for a frame. -/
  | ready
  | waiting
  /-- Bytes came in; about to look for a frame once more. -/
  | fed
  | ended
  deriving DecidableEq, Repr

/-- What a user of a stream holds. -/
structure Handle where
  serial : Nat
  /-- The label that the stream was opened with. -/
  label : Option String
  live : Bool := true
  deriving DecidableEq, Repr

/-- One side of a multiplexed connection. -/
structure Session where
  side : Side
  settings : Settings
  ids : Ids
  registry : Registry := {}
  /-- All handles ever made. -/
  handles : List Handle := []
  counters : Counters := {}
  tornDown : Bool := false
  loop : LoopState := .ready
  /-- Bytes that came in and are no frame yet. -/
  assembler : Assembler := {}
  conditions : Conditions := {}
  /-- The handles of accepted streams for which the handler was called, by their place among all
  handles, oldest first. -/
  arrivals : List Nat := []
  /-- What was written to the link, oldest first. -/
  written : List Bytes := []
  /-- The journal, oldest first. -/
  notes : List Note := []
  deriving DecidableEq, Repr

/-- A session at its beginning. -/
def Session.start (side : Side) (settings : Settings) : Session :=
  { side, settings, ids := Ids.ofSide side }

/-- A session together with the link under it. -/
structure Mux extends Session where
  link : Link
  deriving DecidableEq, Repr

namespace Mux

/-! ### Journal and counters -/

def note (m : Mux) (entry : Note) : Mux :=
  { m with notes := m.notes ++ [entry] }

def count (m : Mux) (f : Counters → Counters) : Mux :=
  { m with counters := f m.counters }

/-- Counts the end of a stream. -/
def countEnding (m : Mux) : Ending → Mux
  | .closed => m.count (·.bump .closed)
  | .reset => m.count (·.bump .reset)

/-! ### The link -/

/-- Whether the connection is gone: torn down, or closed under the session. -/
def isClosed (m : Mux) : Bool :=
  m.tornDown || m.link.isClosed m.side

def transmit (m : Mux) (chunk : Bytes) : Mux × Except LinkFault Unit :=
  match m.conditions.failWrite with
  | some fault => ({ m with conditions := { m.conditions with failWrite := none } }, .error fault)
  | none =>
    match m.link.write m.side chunk with
    | .error fault => (m, .error fault)
    | .ok link => ({ m with link, written := m.written ++ [chunk] }, .ok ())

/-- Closes this end of the link.  It is closed even if the answer is a fault. -/
def shut (m : Mux) : Mux × Except LinkFault Unit :=
  let closed := { m with link := m.link.close m.side }
  let m := if m.link.isClosed m.side then m else closed.note (.linkClosed m.side)
  match m.conditions.failClose with
  | some fault => ({ m with conditions := { m.conditions with failClose := none } }, .error fault)
  | none => (m, .ok ())

/-- What a read of the link comes to now; `none` while it waits.  A pause holds it up until this end
is closed; then a wait that runs out comes first, a failure second, and what the link holds last. -/
def poll (m : Mux) : Mux × Option (Except LinkFault (Option Bytes)) :=
  if m.conditions.paused && !m.link.isClosed m.side then (m, none)
  else
    match m.conditions.timeouts, m.conditions.failRead with
    | timeouts + 1, _ => ({ m with conditions := { m.conditions with timeouts } }, some (.ok none))
    | 0, some fault =>
      ({ m with conditions := { m.conditions with failRead := none } }, some (.error fault))
    | 0, none =>
      match m.link.read m.side m.settings.readSize with
      | (_, .ok none) => (m, none)
      | (link, result) => ({ m with link }, some result)

/-! ### Teardown and sending -/

/-- Tears the connection down: closes the link and severs every stream.  Only the first time has an
effect. -/
def tearDown (m : Mux) (cause : Cause) : Mux :=
  if m.tornDown then m
  else
    let m := { m with tornDown := true }.note (.tearingDown cause)
    let m := match m.shut with
      | (m, .ok ()) => m
      | (m, .error fault) => m.note (.closeFailed fault)
    let (registry, severed) := m.registry.sever
    { m with registry }.note (.severed severed)

/-- Sends one frame: the number of bytes written.  If the link refuses them, the connection is torn
down before the fault is handed back. -/
def send (m : Mux) (frame : Frame) : Mux × Except Fault Nat :=
  match frame.encode with
  | .error fault => (m, .error (.frame fault))
  | .ok bytes =>
    if m.isClosed then (m, .error .closed)
    else
      match m.transmit bytes with
      | (m, .ok ()) =>
        let m := m.count (·.frameOut frame.payload.length bytes.length)
        (m.note (.sent frame.flag frame.id frame.payload.length), .ok bytes.length)
      | (m, .error fault) =>
        ((m.note (.writeFailed frame.id fault)).tearDown (.writeFailed fault), .error (.link fault))

end Mux

end StreamMux
