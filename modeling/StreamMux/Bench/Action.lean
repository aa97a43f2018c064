import StreamMux.Network

/-!
# Steps on a bench

What can be done on a bench (`Action`) and what comes of it (`Answer`).  Handles have numbers there,
in the order in which they appear at either side.
-/

namespace StreamMux.Bench

inductive Action where
  | idle
  -- with a handle
  | write (handle : Nat) (data : Bytes)
  | finish (handle : Nat) (ending : Ending)
  | readNow (handle : Nat)
  /-- Reads as far as there is something. -/
  | readAll (handle : Nat)
  | read (handle : Nat)
  /-- Reads, and another step is done while the reader waits. -/
  | readDuring (handle : Nat) (step : Action)
  | inspect (handle : Nat)
  | drop (handle : Nat)
  -- with a session
  | openStream (side : Side) (label : Option String)
  | send (side : Side) (frame : Frame)
  | readById (side : Side) (id : UInt64)
  | readByIdNow (side : Side) (id : UInt64)
  | close (side : Side)
  | abandon (side : Side)
  | status (side : Side)
  -- with the bare end of the link
  | feedFrames (frames : List Frame)
  | feedChunks (chunks : List Bytes)
  | closeBare
  | resetBare
  | readBare (size : Nat)
  -- with the link under a session
  | resetLink (side : Side)
  | closeLink (side : Side)
  | pause (side : Side)
  | resume (side : Side)
  | timeout (side : Side)
  | failRead (side : Side) (fault : LinkFault)
  | failWrite (side : Side) (fault : LinkFault)
  | failClose (side : Side) (fault : LinkFault)

/-- What became of something that was put into the link at its bare end. -/
inductive Feed where
  | done
  | link (fault : LinkFault)
  | frame (fault : FrameFault)

structure Inspection where
  stream : Stream
  label : Option String
  text : String

inductive Answer where
  | nothing
  | done
  | noHandle
  | noSession
  | fault (fault : Fault)
  | size (size : Nat)
  /-- A reading by a reader that can wait. -/
  | reading (reading : Reading)
  /-- A reading by a reader that does not wait. -/
  | readingNow (reading : Reading)
  /-- Chunks, and what came instead of a further one. -/
  | readings (chunks : List Bytes) (last : Reading)
  /-- The answer to another step, and the reading that waited for it. -/
  | during (step : Answer) (reading : Answer)
  | inspection (inspection : Inspection)
  | opened (handle : Nat) (id : UInt64)
  | status (side : Side) (settings : Settings) (sane : Bool)
  | feeds (feeds : List Feed)
  /-- What was read at the bare end. -/
  | bare (result : Except LinkFault (Option Bytes))
  | link (result : Except LinkFault Unit)

end StreamMux.Bench
