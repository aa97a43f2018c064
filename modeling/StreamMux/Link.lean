import StreamMux.Fault

/-!
# A link in memory

A link joins two ends, one of which dialed.  Each `Link.write` puts one chunk into the other end's
inbox, so that what is written at once stays together; `Link.read` takes one chunk out of the own
inbox and keeps what exceeds the number of bytes asked for as the end's remainder.

An end that was closed reads and writes no more.  The other end still reads what was written to it
before, and then comes to the orderly end.  A reset reaches both ends at once.
-/

namespace StreamMux

/-! ### Sides -/

/-- The two ends of a link: the one that dialed and the one that was dialed. -/
inductive Side where
  | dialer | listener
  deriving DecidableEq, Repr

namespace Side

def other : Side → Side
  | dialer => listener
  | listener => dialer

theorem other_other (side : Side) : side.other.other = side := by cases side <;> rfl

theorem ne_other (side : Side) : side ≠ side.other := by cases side <;> simp [other]

theorem both {P : Side → Prop} (side : Side) (self : P side) (other : P side.other) :
    ∀ s, P s := by
  intro s
  cases side <;> cases s <;> assumption

/-- The number of an end in messages. -/
def index : Side → Nat
  | dialer => 0
  | listener => 1

end Side

/-- One thing for each side. -/
structure Both (α : Type) where
  dialer : α
  listener : α
  deriving DecidableEq, Repr

namespace Both

variable {α : Type}

def get (both : Both α) : Side → α
  | .dialer => both.dialer
  | .listener => both.listener

/-- Puts a thing at one side. -/
def set (both : Both α) (side : Side) (a : α) : Both α :=
  match side with
  | .dialer => { both with dialer := a }
  | .listener => { both with listener := a }

@[simp] theorem get_set_self (both : Both α) (side : Side) (a : α) :
    (both.set side a).get side = a := by cases side <;> rfl

@[simp] theorem get_set_other (both : Both α) (side : Side) (a : α) :
    (both.set side a).get side.other = both.get side.other := by cases side <;> rfl

@[simp] theorem get_other_set (both : Both α) (side : Side) (a : α) :
    (both.set side.other a).get side = both.get side := by cases side <;> rfl

end Both

/-! ### Links -/

structure LinkEnd where
  /-- The chunks on their way to this end, oldest first. -/
  inbox : List Bytes := []
  /-- What is left of the chunk read last. -/
  remainder : Bytes := []
  closed : Bool := false
  deriving DecidableEq, Repr

/-- All bytes on their way to an end, oldest first. -/
def LinkEnd.pending (e : LinkEnd) : Bytes :=
  e.remainder ++ e.inbox.flatten

/-- Two ends, and whether one of them was reset. -/
structure Link where
  ends : Both LinkEnd := ⟨{}, {}⟩
  wasReset : Bool := false
  deriving DecidableEq, Repr

namespace Link

def isClosed (link : Link) (side : Side) : Bool :=
  (link.ends.get side).closed

/-- Closes an end; a second time changes nothing. -/
def close (link : Link) (side : Side) : Link :=
  { link with ends := link.ends.set side { link.ends.get side with closed := true } }

def reset (link : Link) : Link :=
  { link with wasReset := true }

@[simp] theorem isClosed_close_self (link : Link) (side : Side) :
    (link.close side).isClosed side = true := by simp [close, isClosed]

@[simp] theorem isClosed_close_other (link : Link) (side : Side) :
    (link.close side).isClosed side.other = link.isClosed side.other := by simp [close, isClosed]

/-- What a write at an end answers now. -/
def writeFault? (link : Link) (side : Side) : Option LinkFault :=
  if link.isClosed side then some .closed
  else if link.wasReset || link.isClosed side.other then some .reset
  else none

/-- Writes a chunk towards the other end; an empty one is not sent. -/
def write (link : Link) (side : Side) (chunk : Bytes) : Except LinkFault Link :=
  match link.writeFault? side with
  | some fault => .error fault
  | none =>
    if chunk.isEmpty then .ok link
    else
      let far := link.ends.get side.other
      .ok { link with ends := link.ends.set side.other { far with inbox := far.inbox ++ [chunk] } }

/-- A chunk goes behind everything that is on its way to the other end. -/
theorem pending_write {link after : Link} {side : Side} {chunk : Bytes}
    (h : link.write side chunk = .ok after) :
    (after.ends.get side.other).pending = (link.ends.get side.other).pending ++ chunk := by
  unfold write at h
  split at h
  · cases h
  · split at h
    · rename_i hempty
      cases h
      simp [List.isEmpty_iff.mp hempty]
    · cases h
      simp [LinkEnd.pending]

theorem get_write_self {link after : Link} {side : Side} {chunk : Bytes}
    (h : link.write side chunk = .ok after) : after.ends.get side = link.ends.get side := by
  unfold write at h
  split at h
  · cases h
  · split at h <;> cases h <;> simp

theorem write_keeps {link after : Link} {side : Side} {chunk : Bytes}
    (h : link.write side chunk = .ok after) :
    after.isClosed side = link.isClosed side ∧
      after.isClosed side.other = link.isClosed side.other ∧ after.wasReset = link.wasReset := by
  unfold write at h
  split at h
  · cases h
  · split at h <;> cases h
    · exact ⟨rfl, rfl, rfl⟩
    · simp [isClosed]

/-- Reads up to `size` bytes, but at least one, without waiting: `none` while nothing is there. -/
def read (link : Link) (side : Side) (size : Nat) : Link × Except LinkFault (Option Bytes) :=
  let near := link.ends.get side
  let size := max size 1
  let keep (near : LinkEnd) : Link := { link with ends := link.ends.set side near }
  if near.closed then (link, .error .closed)
  else if link.wasReset then (link, .error .reset)
  else if near.remainder ≠ [] then
    let chunk := near.remainder.take size
    (keep { near with remainder := near.remainder.drop size }, .ok (some chunk))
  else
    match near.inbox with
    | chunk :: inbox =>
      (keep { near with inbox, remainder := chunk.drop size }, .ok (some (chunk.take size)))
    | [] => (link, if link.isClosed side.other then .error .closed else .ok none)

/-- What is read stood in front of everything that is on its way to this end. -/
theorem pending_read {link after : Link} {side : Side} {size : Nat} {chunk : Bytes}
    (h : link.read side size = (after, .ok (some chunk))) :
    (link.ends.get side).pending = chunk ++ (after.ends.get side).pending := by
  unfold read at h
  simp only at h
  split at h
  · cases h
  · split at h
    · cases h
    · split at h
      · cases h
        simp only [LinkEnd.pending, Both.get_set_self]
        rw [← List.append_assoc, List.take_append_drop]
      · rename_i hempty
        split at h
        · rename_i hinbox
          cases h
          simp only [LinkEnd.pending, Both.get_set_self, hinbox,
            Decidable.not_not.mp hempty, List.flatten_cons, List.nil_append]
          rw [← List.append_assoc, List.take_append_drop]
        · split at h <;> cases h

theorem read_eq {link after : Link} {side : Side} {size : Nat}
    {result : Except LinkFault (Option Bytes)} (h : link.read side size = (after, result))
    (hresult : ∀ chunk, result ≠ .ok (some chunk)) : after = link := by
  unfold read at h
  simp only at h
  split at h
  · cases h
    rfl
  · split at h
    · cases h
      rfl
    · split at h
      · cases h
        exact absurd rfl (hresult _)
      · split at h
        · cases h
          exact absurd rfl (hresult _)
        · cases h
          rfl

/-- A chunk is only read at an end that is open, off a link that was not reset. -/
theorem read_keeps {link after : Link} {side : Side} {size : Nat} {chunk : Bytes}
    (h : link.read side size = (after, .ok (some chunk))) :
    after.wasReset = link.wasReset ∧ after.isClosed side = link.isClosed side ∧
      after.isClosed side.other = link.isClosed side.other := by
  unfold read at h
  simp only at h
  split at h
  · cases h
  · split at h
    · cases h
    · split at h
      · cases h
        simp [isClosed]
      · split at h
        · cases h
          simp [isClosed]
        · split at h <;> cases h

theorem get_read_other (link : Link) (side : Side) (size : Nat) :
    (link.read side size).1.ends.get side.other = link.ends.get side.other := by
  unfold read
  simp only
  split
  · rfl
  · split
    · rfl
    · split
      · simp
      · split <;> simp

end Link

end StreamMux
