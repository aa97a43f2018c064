import StreamMux.Frame.Basic
import StreamMux.Duration

/-!
# Faults

What can go wrong, from the inside out: below a connection (`LinkFault`), in the settings of a
multiplexer (`SettingsFault`), and in a multiplexer as its callers see it (`Fault`).  Each fault is
a cause; the wording is in one `message` function per type.

A failure that the system reports below a connection is told apart by its kind
(`LinkFault.ofSystem`): the peer tore the connection down, or the connection came to its end, or it
is any other failure, which keeps the system's own text.
-/

namespace StreamMux

/-! ### Below a connection -/

/-- The kinds of failure that the system reports, as far as they are told apart. -/
inductive SystemError where
  | connectionReset | connectionAborted | brokenPipe
  | unexpectedEnd | notConnected
  | other
  deriving DecidableEq, Repr

/-- A failure of the connection under a multiplexer. -/
inductive LinkFault where
  /-- The connection came to its orderly end. -/
  | closed
  /-- The connection was torn down. -/
  | reset
  /-- The system reported another failure. -/
  | system (text : String)
  deriving DecidableEq, Repr

namespace LinkFault

/-- What a failure reported by the system means for the connection. -/
def ofSystem (kind : SystemError) (text : String) : LinkFault :=
  match kind with
  | .connectionReset | .connectionAborted | .brokenPipe => reset
  | .unexpectedEnd | .notConnected => closed
  | .other => system text

def message : LinkFault → String
  | closed => "connection closed"
  | reset => "connection reset by peer"
  | system text => s!"connection I/O error: {text}"

end LinkFault

/-! ### Settings -/

/-- A setting that a multiplexer does not run with. -/
inductive SettingsFault where
  | readTimeout (value shortest longest : Duration)
  | frameLimit (value largest : Nat)
  | queueLimit
  | pendingLimit
  | readSize (value smallest : Nat)
  deriving DecidableEq, Repr

def SettingsFault.message : SettingsFault → String
  | readTimeout value shortest longest =>
    s!"read_timeout {value.text} outside [{shortest.text}, {longest.text}]"
  | frameLimit value largest => s!"max_frame_len {value} outside [1, {largest}]"
  | queueLimit => "max_buffered_chunks must be > 0"
  | pendingLimit => "max_pending_streams must be > 0"
  | readSize value smallest => s!"read_chunk_size {value} below {smallest}"

/-! ### At a multiplexer -/

/-- What an operation of a multiplexer answers when it fails. -/
inductive Fault where
  | link (fault : LinkFault)
  /-- Bytes are no frame, or a frame cannot be written. -/
  | frame (fault : FrameFault)
  | streamNotFound (id : UInt64)
  | streamClosed (id : UInt64)
  | streamReset (id : UInt64)
  /-- All stream numbers of this side are used up. -/
  | idsExhausted
  | settings (fault : SettingsFault)
  /-- The system reported a failure outside the connection. -/
  | system (text : String)
  deriving DecidableEq, Repr

namespace Fault

def message : Fault → String
  | link fault => s!"connection error: {fault.message}"
  | frame fault => s!"frame decode error: {fault.message}"
  | streamNotFound id => s!"stream {id} is not found"
  | streamClosed id => s!"stream {id} is closed"
  | streamReset id => s!"stream {id} was reset"
  | idsExhausted => "stream id space exhausted"
  | settings fault => s!"invalid config: {fault.message}"
  | system text => s!"I/O error: {text}"

/-- Whether the whole connection is gone. -/
def isLink : Fault → Bool
  | link _ => true
  | _ => false

/-- The connection came to its end. -/
def closed : Fault := link .closed

end Fault

end StreamMux
