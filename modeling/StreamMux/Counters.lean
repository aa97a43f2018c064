/-!
# Counters

What a multiplexer counts over the lifetime of its connection: frames and bytes in both directions,
and streams by how they began and ended.  All counters together are a list of ten values in a fixed
order (`Counters.values`), each of which has a name (`Counters.names`).

The counters are numbers without a limit: they stand for words of 64 bits that are taken not to wrap
within the lifetime of a connection.
-/

namespace StreamMux

structure Counters where
  framesIn : Nat := 0
  framesOut : Nat := 0
  bytesIn : Nat := 0
  bytesOut : Nat := 0
  /-- Bytes of headers and lengths, in both directions. -/
  overhead : Nat := 0
  opened : Nat := 0
  accepted : Nat := 0
  closed : Nat := 0
  reset : Nat := 0
  /-- Frames that had no effect. -/
  ignored : Nat := 0
  deriving DecidableEq, Repr

namespace Counters

/-! ### As a list -/

def names : List String :=
  ["frames_in", "frames_out", "bytes_in", "bytes_out", "bytes_overhead", "streams_opened",
    "streams_accepted", "streams_closed", "streams_reset", "frames_ignored"]

/-- The ten counters in the order of their names. -/
def values (c : Counters) : List Nat :=
  [c.framesIn, c.framesOut, c.bytesIn, c.bytesOut, c.overhead, c.opened, c.accepted, c.closed,
    c.reset, c.ignored]

/-- The counters with ten given values. -/
def ofValues? : List Nat → Option Counters
  | [framesIn, framesOut, bytesIn, bytesOut, overhead, opened, accepted, closed, reset, ignored] =>
    some ⟨framesIn, framesOut, bytesIn, bytesOut, overhead, opened, accepted, closed, reset,
      ignored⟩
  | _ => none

theorem ofValues?_values (c : Counters) : ofValues? c.values = some c := rfl

/-! ### Counting -/

/-- One frame of `size` bytes came in, `payload` of which are its payload. -/
def frameIn (c : Counters) (payload size : Nat) : Counters :=
  { c with
    framesIn := c.framesIn + 1
    bytesIn := c.bytesIn + payload
    overhead := c.overhead + (size - payload) }

/-- One frame of `size` bytes went out, `payload` of which are its payload. -/
def frameOut (c : Counters) (payload size : Nat) : Counters :=
  { c with
    framesOut := c.framesOut + 1
    bytesOut := c.bytesOut + payload
    overhead := c.overhead + (size - payload) }

/-- What is counted besides frames and bytes. -/
inductive Event where
  | opened | accepted | closed | reset
  /-- A frame had no effect. -/
  | ignored
  deriving DecidableEq, Repr

/-- One more of something. -/
def bump (c : Counters) : Event → Counters
  | .opened => { c with opened := c.opened + 1 }
  | .accepted => { c with accepted := c.accepted + 1 }
  | .closed => { c with closed := c.closed + 1 }
  | .reset => { c with reset := c.reset + 1 }
  | .ignored => { c with ignored := c.ignored + 1 }

/-- The counters of two connections together. -/
instance : Add Counters where
  add c d :=
    { framesIn := c.framesIn + d.framesIn
      framesOut := c.framesOut + d.framesOut
      bytesIn := c.bytesIn + d.bytesIn
      bytesOut := c.bytesOut + d.bytesOut
      overhead := c.overhead + d.overhead
      opened := c.opened + d.opened
      accepted := c.accepted + d.accepted
      closed := c.closed + d.closed
      reset := c.reset + d.reset
      ignored := c.ignored + d.ignored }

theorem values_add (c d : Counters) :
    (c + d).values = List.zipWith (· + ·) c.values d.values := rfl

/-! ### Totals -/

def frames (c : Counters) : Nat := c.framesIn + c.framesOut

def payloadBytes (c : Counters) : Nat := c.bytesIn + c.bytesOut

/-- The fewest bytes that a frame has besides its payload: one of header, one of length. -/
def smallestOverhead : Nat := 2

/-- No frame has less than the smallest overhead, and no more streams ended than began. -/
def Sane (c : Counters) : Prop :=
  smallestOverhead * c.frames ≤ c.overhead ∧ c.closed + c.reset ≤ c.opened + c.accepted

instance (c : Counters) : Decidable c.Sane :=
  inferInstanceAs (Decidable (_ ∧ _))

end Counters

end StreamMux
