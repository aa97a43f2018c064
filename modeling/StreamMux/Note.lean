import StreamMux.Link
import StreamMux.Stream.Basic

/-!
# Notes

What a multiplexer and the link below it write into their journal.  A note says what happened and
has a level of importance; `Note.line` writes both.
-/

namespace StreamMux

/-- Levels of importance, from the least. -/
inductive Level where
  | trace | debug | info | warn | error
  deriving DecidableEq, Repr

def Level.name : Level → String
  | trace => "TRACE"
  | debug => "DEBUG"
  | info => "INFO"
  | warn => "WARN"
  | error => "ERROR"

/-- Why a frame of the peer found no stream. -/
inductive Refusal where
  | closed
  /-- The number is one that this side gives out, and no current stream has it. -/
  | ownNumber
  /-- Too many streams of the peer are not announced. -/
  | crowded
  deriving DecidableEq, Repr

def Refusal.message : Refusal → String
  | closed => "connection is shutting down"
  | ownNumber => "id belongs to a local stream that no longer exists"
  | crowded => "too many unannounced peer streams"

/-- Why a connection is torn down. -/
inductive Cause where
  | closedHere
  | writeFailed (fault : LinkFault)
  /-- No further frame can be read. -/
  | readFailed (fault : Fault)
  deriving DecidableEq, Repr

def Cause.message : Cause → String
  | closedHere => "closed locally"
  | writeFailed fault => s!"write failed: {fault.message}"
  | readFailed fault => fault.message

/-- One entry of the journal. -/
inductive Note where
  | started (side : Side)
  | loopStarted
  | loopStoppedAfterClose (fault : Fault)
  | loopStopped
  | malformed (fault : Fault)
  | transportFailed (fault : Fault)
  | sent (flag : UInt8) (id : UInt64) (size : Nat)
  | received (kind : Kind) (id : UInt64) (size : Nat)
  | writeFailed (id : UInt64) (fault : LinkFault)
  | tearingDown (cause : Cause)
  | closeFailed (fault : LinkFault)
  | severed (count : Nat)
  | opened (id : UInt64) (label : Option String)
  | accepted (id : UInt64)
  | early (id : UInt64)
  | queueFull (id : UInt64) (limit : Nat)
  | resetNotSent (id : UInt64) (fault : Fault)
  | dropped (state : StreamState) (id : UInt64)
  | endedByPeer (id : UInt64) (ending : Ending)
  | endedHere (id : UInt64) (ending : Ending)
  | unknownEnded (ending : Ending) (id : UInt64)
  | reservedFlag (flag : UInt8) (id : UInt64)
  | announcedTwice (id : UInt64)
  | notDispatched (id : UInt64) (fault : Fault)
  | refused (id : UInt64) (refusal : Refusal)
  | passedOver (kind : Kind) (id : UInt64) (refusal : Refusal)
  | linkClosed (side : Side)
  | linkReset (side : Side)
  deriving DecidableEq, Repr

namespace Note

def level : Note → Level
  | sent .. | received .. => .trace
  | started .. | loopStopped | tearingDown .. => .info
  | transportFailed .. | writeFailed .. | queueFull .. | reservedFlag .. | announcedTwice ..
  | refused .. => .warn
  | malformed .. | notDispatched .. => .error
  | _ => .debug

/-- The name and version that a multiplexer announces. -/
def protocolName : String := "/mplex/6.7.0"

def message : Note → String
  | started side => s!"{protocolName} started (initiator={side == .dialer})"
  | loopStarted => "demux loop started"
  | loopStoppedAfterClose fault => s!"demux loop stopped after close: {fault.message}"
  | loopStopped => "demux loop stopped"
  | malformed fault => s!"malformed frame from peer: {fault.message}"
  | transportFailed fault => s!"transport failed: {fault.message}"
  | sent flag id size => s!"sent flag={flag} stream={id} len={size}"
  | received kind id size => s!"recv {kind.name} stream={id} len={size}"
  | writeFailed id fault => s!"write on stream {id} failed: {fault.message}"
  | tearingDown cause => s!"tearing down connection: {cause.message}"
  | closeFailed fault => s!"transport close failed: {fault.message}"
  | severed count => s!"severed {count} streams"
  | opened id label =>
    let label := label.getD "-"
    s!"opened stream {id} ({label})"
  | accepted id => s!"accepted stream {id}"
  | early id => s!"data before new-stream for stream {id}; pending"
  | queueFull id limit => s!"stream {id} inbound queue full ({limit} chunks); resetting"
  | resetNotSent id fault => s!"reset of stream {id} not sent: {fault.message}"
  | dropped state id => s!"dropping data for {state.name} stream {id}"
  | endedByPeer id ending => s!"stream {id} {ending.name} by peer"
  | endedHere id ending => s!"stream {id} {ending.name} locally"
  | unknownEnded ending id => s!"ignoring {ending.name} for unknown stream {id}"
  | reservedFlag flag id => s!"ignoring frame with reserved flag {flag} on stream {id}"
  | announcedTwice id => s!"ignoring repeated new-stream for stream {id}"
  | notDispatched id fault => s!"failed to dispatch stream {id}: {fault.message}"
  | refused id refusal => s!"refusing stream {id}: {refusal.message}"
  | passedOver kind id refusal => s!"ignoring {kind.name} for stream {id}: {refusal.message}"
  | linkClosed side => s!"memory transport side {side.index} closed"
  | linkReset side => s!"memory transport side {side.index} reset"

/-- The note as a line of the journal. -/
def line (note : Note) : String :=
  note.level.name ++ " " ++ note.message

end Note

end StreamMux
