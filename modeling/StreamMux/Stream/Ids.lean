import StreamMux.Link

/-!
# Stream numbers

The side that dialed numbers the streams it opens 0, 2, 4, …, the other side 1, 3, 5, …, so that
streams opened at both ends never share a number.  The numbers of one side end where the header has
no more room for them.
-/

namespace StreamMux

/-- The numbers that one side has not yet given out. -/
structure Ids where
  next : UInt64
  deriving DecidableEq, Repr

namespace Ids

/-- All numbers of a side. -/
def ofSide : Side → Ids
  | .dialer => ⟨0⟩
  | .listener => ⟨1⟩

/-- Gives out the next number. -/
def draw (ids : Ids) : Except Fault (UInt64 × Ids) :=
  if ids.next > Header.maxId then .error .idsExhausted else .ok (ids.next, ⟨ids.next + 2⟩)

/-- Whether a number is one that this side gives out, now or at any other time. -/
def owns (ids : Ids) (id : UInt64) : Bool :=
  id % 2 == ids.next % 2

/-- Gives out `count` numbers: the last one, if there is any. -/
def drawMany : Nat → Ids → Ids × Except Fault (Option UInt64)
  | 0, ids => (ids, .ok none)
  | count + 1, ids =>
    match ids.draw with
    | .error fault => (ids, .error fault)
    | .ok (id, ids) =>
      match drawMany count ids with
      | (ids, .ok none) => (ids, .ok (some id))
      | result => result

end Ids

end StreamMux
