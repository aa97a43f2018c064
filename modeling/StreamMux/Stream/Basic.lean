import StreamMux.Frame.Basic

/-!
# Streams

A stream is known to each side by its number and by who opened it.  Chunks that come in wait in its
queue, which holds a bounded number of them.  A stream ends once, closed or reset; chunks that wait
stay readable after that, and no further chunk is taken in.

When the connection goes away under a stream, the stream is *severed*: if it was still open it
counts as reset from then on.  `Stream.ending` keeps how one of the two sides ended the stream, and
`Stream.state` puts both together.
-/

namespace StreamMux

/-! ### Roles -/

/-- Whether this side opened a stream or learned of it from the peer. -/
inductive Role where
  | opener | acceptor
  deriving DecidableEq, Repr

namespace Role

def messageKind : Role → Kind
  | opener => .messageOpener
  | acceptor => .messageAcceptor

def closeKind : Role → Kind
  | opener => .closeOpener
  | acceptor => .closeAcceptor

def resetKind : Role → Kind
  | opener => .resetOpener
  | acceptor => .resetAcceptor

def label : Role → String
  | opener => "Initiator"
  | acceptor => "Receiver"

end Role

/-! ### States -/

/-- How a stream is ended by one of its sides. -/
inductive Ending where
  | closed | reset
  deriving DecidableEq, Repr

/-- What a stream is to its users. -/
inductive StreamState where
  | live | closed | reset
  deriving DecidableEq, Repr

/-- The state that an ending leads to. -/
def Ending.state : Ending → StreamState
  | closed => .closed
  | reset => .reset

def Ending.name : Ending → String
  | closed => "closed"
  | reset => "reset"

/-- The kind of frame that tells the peer of an ending. -/
def Role.endingKind (role : Role) : Ending → Kind
  | .closed => role.closeKind
  | .reset => role.resetKind

namespace StreamState

def name : StreamState → String
  | live => "open"
  | closed => "closed"
  | reset => "reset"

def label : StreamState → String
  | live => "Open"
  | closed => "Closed"
  | reset => "Reset"

end StreamState

/-! ### Streams -/

/-- One stream, as one side knows it. -/
structure Stream where
  id : UInt64
  role : Role
  /-- The number of chunks that may wait. -/
  capacity : Nat
  /-- How one of the sides ended the stream. -/
  ending : Option Ending := none
  /-- Whether the connection went away under the stream. -/
  severed : Bool := false
  /-- The chunks that wait, oldest first. -/
  queue : List Bytes := []
  deriving DecidableEq, Repr

namespace Stream

/-- A stream at its beginning.  At least one chunk may wait. -/
def start (id : UInt64) (role : Role) (capacity : Nat) : Stream :=
  { id, role, capacity := max capacity 1 }

/-- What the stream is to its users. -/
def state (stream : Stream) : StreamState :=
  match stream.ending with
  | some ending => ending.state
  | none => if stream.severed then .reset else .live

/-- Whether the stream is past its end. -/
def isOver (stream : Stream) : Bool :=
  stream.state != .live

def isDrained (stream : Stream) : Bool :=
  stream.queue.isEmpty

/-! ### Taking chunks in -/

/-- What becomes of a chunk that comes in. -/
inductive Admission where
  | queued
  | full
  | over
  deriving DecidableEq, Repr

def push (stream : Stream) (chunk : Bytes) : Stream × Admission :=
  if stream.isOver then (stream, .over)
  else if stream.queue.length ≥ stream.capacity then (stream, .full)
  else ({ stream with queue := stream.queue ++ [chunk] }, .queued)

/-! ### Handing chunks out -/

/-- What a reader gets without waiting. -/
inductive Delivery where
  | chunk (chunk : Bytes)
  | empty
  | over
  deriving DecidableEq, Repr

def pop (stream : Stream) : Stream × Delivery :=
  match stream.queue with
  | chunk :: queue => ({ stream with queue }, .chunk chunk)
  | [] => (stream, if stream.isOver then .over else .empty)

/-! ### Ends -/

/-- Ends an open stream; tells whether it was open. -/
def terminate (stream : Stream) (ending : Ending) : Stream × Bool :=
  if stream.isOver then (stream, false) else ({ stream with ending := some ending }, true)

/-- The connection goes away. -/
def sever (stream : Stream) : Stream :=
  { stream with severed := true }

/-! ### What the operations do to the queue and the state -/

theorem isOver_iff {stream : Stream} :
    stream.isOver = true ↔ stream.ending ≠ none ∨ stream.severed = true := by
  unfold isOver state
  cases stream.ending with
  | none => cases stream.severed <;> simp
  | some ending => cases ending <;> simp [Ending.state]

/-- What is queued is put behind the queue, and anything else leaves the stream as it is. -/
theorem push_eq (stream : Stream) (chunk : Bytes) :
    (stream.push chunk).1 = stream ∧ (stream.push chunk).2 ≠ .queued ∨
    (stream.push chunk).1 = { stream with queue := stream.queue ++ [chunk] } ∧
      (stream.push chunk).2 = .queued := by
  unfold push
  split
  · simp
  · split <;> simp

theorem queue_pop {stream after : Stream} {chunk : Bytes}
    (h : stream.pop = (after, .chunk chunk)) : stream.queue = chunk :: after.queue := by
  unfold pop at h
  split at h
  · rename_i hqueue
    cases h
    exact hqueue
  · split at h <;> cases h

theorem terminate_of_isOver {stream : Stream} (h : stream.isOver = true) (ending : Ending) :
    stream.terminate ending = (stream, false) := by
  simp [terminate, h]

theorem state_terminate {stream : Stream} (h : stream.isOver = false) (ending : Ending) :
    (stream.terminate ending).1.state = ending.state := by
  simp [terminate, h, state]

/-- Only an open stream changes its state when the connection goes away. -/
theorem state_sever (stream : Stream) :
    stream.sever.state = if stream.isOver then stream.state else .reset := by
  unfold isOver state sever
  cases stream.ending with
  | none => cases stream.severed <;> simp
  | some ending => cases ending <;> simp [Ending.state]

/-! ### Text -/

/-- All that can be seen of a stream, in one line. -/
def text (stream : Stream) : String :=
  s!"StreamRecord \x7b id: {stream.id}, direction: {stream.role.label}, state: " ++
  s!"{stream.state.label}, queued: {stream.queue.length}, severed: {stream.severed} \x7d"

end Stream

end StreamMux
