import StreamMux.Frame.Wire
import StreamMux.Link

/-!
# Frames out of chunks

Bytes come in chunks whose borders have nothing to do with frames.  An `Assembler` keeps the bytes
that came in and are not yet part of a frame; `Frame.cut` takes one frame off their front.

`Assembler.next` reads a link at most once for each call.  Bytes that are no frame stay where they
are, so that every later call finds them again and reads no further.
-/

namespace StreamMux

/-- Takes one frame off the front of `bytes`: the frame and the rest, or `none` while it is not all
there. -/
def Frame.cut (bytes : Bytes) (limit : Nat) : Except FrameFault (Option (Frame × Bytes)) :=
  match Preamble.scan bytes limit with
  | .error fault => .error fault
  | .ok none => .ok none
  | .ok (some preamble) =>
    let body := bytes.drop preamble.size
    let payload := body.take preamble.payloadSize
    if payload.length < preamble.payloadSize then .ok none
    else .ok (some (⟨preamble.id, preamble.flag, payload⟩, body.drop preamble.payloadSize))

/-- Bytes that came in and wait to become frames, oldest first. -/
structure Assembler where
  buffer : Bytes := []
  deriving DecidableEq, Repr

namespace Assembler

def buffered (assembler : Assembler) : Nat :=
  assembler.buffer.length

/-- Puts a chunk behind the bytes that wait. -/
def feed (assembler : Assembler) (chunk : Bytes) : Assembler :=
  ⟨assembler.buffer ++ chunk⟩

/-- Takes the frame at the front, if it is all there. -/
def take (assembler : Assembler) (limit : Nat) : Assembler × Except FrameFault (Option Frame) :=
  match Frame.cut assembler.buffer limit with
  | .error fault => (assembler, .error fault)
  | .ok none => (assembler, .ok none)
  | .ok (some (frame, rest)) => (⟨rest⟩, .ok (some frame))

/-- The next frame with a payload of at most `limit` bytes.  If the buffer holds none, up to
`readSize` bytes are read off the link, once; the answer is `none` while the frame is not all there
after that. -/
def next (assembler : Assembler) (limit readSize : Nat) (link : Link) (side : Side) :
    (Assembler × Link) × Except Fault (Option Frame) :=
  match assembler.take limit with
  | (assembler, .error fault) => ((assembler, link), .error (.frame fault))
  | (assembler, .ok (some frame)) => ((assembler, link), .ok (some frame))
  | (assembler, .ok none) =>
    match link.read side readSize with
    | (link, .error fault) => ((assembler, link), .error (.link fault))
    | (link, .ok none) => ((assembler, link), .ok none)
    | (link, .ok (some chunk)) =>
      let (assembler, result) := (assembler.feed chunk).take limit
      ((assembler, link), result.mapError .frame)

end Assembler

end StreamMux
