import StreamMux.Varint

/-!
# Frames

A frame belongs to one stream, says what it does to it (`Kind`) and carries a payload.  On the wire
the stream's number and the kind share one 64-bit header: the kind takes the low three bits, the
number the other sixty-one.  A frame keeps the three bits as they are, since one of the eight values
is reserved; `Frame.kind?` interprets them.

* `Header.combine` refuses a number or a flag that does not fit, `Header.split` splits any header;
* `FrameFault` lists what can be wrong with a frame, `FrameFault.message` says it in words.
-/

namespace StreamMux

/-! ### Kinds of frames -/

/-- What a frame does.  The kinds that end in `Opener` are sent by the side that opened the stream,
those that end in `Acceptor` by the other one. -/
inductive Kind where
  | newStream
  | messageAcceptor | messageOpener
  | closeAcceptor | closeOpener
  | resetAcceptor | resetOpener
  deriving DecidableEq, Repr

namespace Kind

def flag : Kind → UInt8
  | newStream => 0
  | messageAcceptor => 1
  | messageOpener => 2
  | closeAcceptor => 3
  | closeOpener => 4
  | resetAcceptor => 5
  | resetOpener => 6

/-- The kind that a flag stands for; seven and everything above it stand for none. -/
def ofFlag? (flag : UInt8) : Option Kind :=
  [newStream, messageAcceptor, messageOpener, closeAcceptor, closeOpener, resetAcceptor,
    resetOpener].find? (·.flag == flag)

theorem ofFlag?_flag (kind : Kind) : ofFlag? kind.flag = some kind := by
  cases kind <;> rfl

def name : Kind → String
  | newStream => "new-stream"
  | messageAcceptor => "message-receiver"
  | messageOpener => "message-initiator"
  | closeAcceptor => "close-receiver"
  | closeOpener => "close-initiator"
  | resetAcceptor => "reset-receiver"
  | resetOpener => "reset-initiator"

def label : Kind → String
  | newStream => "NewStream"
  | messageAcceptor => "MessageReceiver"
  | messageOpener => "MessageInitiator"
  | closeAcceptor => "CloseReceiver"
  | closeOpener => "CloseInitiator"
  | resetAcceptor => "ResetReceiver"
  | resetOpener => "ResetInitiator"

end Kind

/-! ### What can be wrong with a frame -/

/-- A reason to refuse a frame, or bytes that should be one. -/
inductive FrameFault where
  | varintOverflow
  /-- The payload is longer than the reader accepts. -/
  | tooLarge (size : UInt64) (limit : Nat)
  /-- The stream's number does not fit the header beside the flag. -/
  | idOutOfRange (id : UInt64)
  | invalidFlag (flag : UInt8)
  | truncated
  | sizeMismatch (expected actual : Nat)
  deriving DecidableEq, Repr

def FrameFault.message : FrameFault → String
  | varintOverflow => "varint exceeds 64 bits"
  | tooLarge size limit => s!"frame length {size} exceeds limit {limit}"
  | idOutOfRange id => s!"stream id {id} does not fit the frame header"
  | invalidFlag flag => s!"invalid flag: {flag}"
  | truncated => "truncated frame"
  | sizeMismatch expected actual => s!"length mismatch: expected {expected}, got {actual}"

/-! ### Headers -/

namespace Header

/-- The number of low bits that hold the flag. -/
def flagBits : Nat := 3

/-- The largest flag that fits. -/
def maxFlag : UInt8 := 7

/-- The largest stream number that fits beside the flag. -/
def maxId : UInt64 := 0x1fffffffffffffff

/-- The header as a word: the bits of `id` that have room, then the low three bits of `flag`. -/
def word (id : UInt64) (flag : UInt8) : UInt64 :=
  (id <<< 3) ||| (flag &&& 7).toUInt64

/-- The header of a frame.  A number that does not fit is reported before a flag that does not. -/
def combine (id : UInt64) (flag : UInt8) : Except FrameFault UInt64 :=
  if id > maxId then .error (.idOutOfRange id)
  else if flag > maxFlag then .error (.invalidFlag flag)
  else .ok (word id flag)

/-- The stream's number and the flag in a header. -/
def split (header : UInt64) : UInt64 × UInt8 :=
  (header >>> 3, (header &&& 7).toUInt8)

end Header

/-! ### Frames -/

/-- A frame, whose flag is kept as it stands in the header. -/
structure Frame where
  id : UInt64
  flag : UInt8
  payload : Bytes
  deriving DecidableEq, Repr

namespace Frame

/-- The frame of a known kind. -/
def ofKind (id : UInt64) (kind : Kind) (payload : Bytes) : Frame :=
  ⟨id, kind.flag, payload⟩

/-- What the frame does; `none` for the reserved flag. -/
def kind? (frame : Frame) : Option Kind :=
  Kind.ofFlag? frame.flag

/-- The length of a payload as it is written before the payload. -/
def lengthWord (payload : Bytes) : UInt64 :=
  UInt64.ofNat payload.length

/-- The number of bytes of the frame on the wire.  A number or flag that does not fit the header
counts with the bits that do. -/
def wireSize (frame : Frame) : Nat :=
  Varint.size (Header.word frame.id frame.flag) + Varint.size (lengthWord frame.payload)
    + frame.payload.length

end Frame

end StreamMux
