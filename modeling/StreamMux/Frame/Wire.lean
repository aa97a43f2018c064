import StreamMux.Frame.Basic

/-!
# Frames on the wire

A frame is written as its header, the length of its payload, both as variable-length integers, and
the payload.  An empty payload still has its length, zero, in front.

* `Frame.encode` writes one frame, `Frame.appendTo` puts one behind what is already written;
* `Preamble.scan` reads header and length from the front of a byte string, under a limit;
* `Frame.decode` reads a byte string that should be exactly one frame.
-/

namespace StreamMux

/-! ### Writing -/

namespace Frame

/-- The bytes of a frame, held against the size computed beforehand. -/
def encode (frame : Frame) : Except FrameFault Bytes :=
  match Header.combine frame.id frame.flag with
  | .error fault => .error fault
  | .ok header =>
    let length := lengthWord frame.payload
    let expected := Varint.size header + Varint.size length + frame.payload.length
    let bytes := Varint.encode header ++ Varint.encode length ++ frame.payload
    if bytes.length = expected then .ok bytes else .error (.sizeMismatch expected bytes.length)

/-- Writes a frame behind `buffer`: the longer buffer and the number of bytes written.  A frame that
cannot be written leaves the buffer as it is. -/
def appendTo (frame : Frame) (buffer : Bytes) : Bytes × Except FrameFault Nat :=
  match Header.combine frame.id frame.flag with
  | .error fault => (buffer, .error fault)
  | .ok header =>
    let longer := buffer ++ Varint.encode header
    let longer := longer ++ Varint.encode (lengthWord frame.payload)
    let longer := longer ++ frame.payload
    (longer, .ok (longer.length - buffer.length))

end Frame

/-! ### Reading -/

/-- What stands in front of a payload. -/
structure Preamble where
  id : UInt64
  flag : UInt8
  payloadSize : Nat
  /-- The number of bytes in front of the payload. -/
  size : Nat
  deriving DecidableEq, Repr

namespace Preamble

/-- The number of bytes of the whole frame. -/
def frameSize (preamble : Preamble) : Nat :=
  preamble.size + preamble.payloadSize

/-- Reads header and length from the front of `bytes`: `none` while one of the two is unfinished.
The payload need not be there.  A length above `limit` is a fault. -/
def scan (bytes : Bytes) (limit : Nat) : Except FrameFault (Option Preamble) :=
  match Varint.decode bytes with
  | .overflow => .error .varintOverflow
  | .incomplete => .ok none
  | .value header headerSize =>
    match Varint.decode (bytes.drop headerSize) with
    | .overflow => .error .varintOverflow
    | .incomplete => .ok none
    | .value length lengthSize =>
      if length.toNat > limit then .error (.tooLarge length limit)
      else
        let (id, flag) := Header.split header
        .ok (some ⟨id, flag, length.toNat, headerSize + lengthSize⟩)

end Preamble

namespace Frame

/-- The largest payload length that can be written, and so no limit at all. -/
def noLimit : Nat := UInt64.size - 1

/-- Reads `bytes` as exactly one frame. -/
def decode (bytes : Bytes) : Except FrameFault Frame :=
  match Preamble.scan bytes noLimit with
  | .error fault => .error fault
  | .ok none => .error .truncated
  | .ok (some preamble) =>
    if bytes.length < preamble.frameSize then .error .truncated
    else if bytes.length ≠ preamble.frameSize then
      .error (.sizeMismatch preamble.frameSize bytes.length)
    else .ok ⟨preamble.id, preamble.flag, bytes.drop preamble.size⟩

end Frame

end StreamMux
