import StreamMux.Stream.Basic
import StreamMux.Fault

/-!
# The registry of streams

A registry keeps every stream that it ever created, under a serial number that names it for good,
and knows which of them is the current one of each stream number.  Streams that the peer began and
that nobody has accepted yet are *pending*, in the order in which they came.

A stream leaves the registry's entries when it is over and drained, or when it is removed; whoever
holds its serial number still has the stream itself.
-/

namespace StreamMux

/-- Streams, and which of them are current. -/
structure Registry where
  /-- All streams ever created; the serial number is the position. -/
  streams : List Stream := []
  /-- The current streams: number and serial number. -/
  entries : List (UInt64 × Nat) := []
  /-- The numbers of the peer's streams that wait to be accepted, oldest first. -/
  pending : List UInt64 := []
  deriving DecidableEq, Repr

namespace Registry

/-! ### Looking up -/

/-- What a serial number that was never given out stands for: a stream cut off before it began, with
a number that no frame can carry. -/
def absent : Stream :=
  { id := 0xffffffffffffffff, role := .acceptor, capacity := 1, severed := true }

/-- The stream with a serial number. -/
def stream (registry : Registry) (serial : Nat) : Stream :=
  registry.streams.getD serial absent

/-- The serial number of the current stream with a number. -/
def find? (registry : Registry) (id : UInt64) : Option Nat :=
  registry.entries.lookup id

/-- The current stream with a number, which should be there. -/
def lookup (registry : Registry) (id : UInt64) : Except Fault Nat :=
  match registry.find? id with
  | some serial => .ok serial
  | none => .error (.streamNotFound id)

def size (registry : Registry) : Nat :=
  registry.entries.length

/-! ### Changing streams -/

/-- Puts `stream` in place of the one with a serial number. -/
def update (registry : Registry) (serial : Nat) (stream : Stream) : Registry :=
  { registry with streams := registry.streams.set serial stream }

/-- Takes up a new stream as the current one of its number. -/
def create (registry : Registry) (stream : Stream) : Registry × Nat :=
  let serial := registry.streams.length
  ({ registry with
      streams := registry.streams ++ [stream]
      entries := registry.entries.filter (·.1 != stream.id) ++ [(stream.id, serial)] }, serial)

/-- Takes up a stream that this side opens. -/
def beginLocal (registry : Registry) (id : UInt64) (capacity : Nat) : Registry × Nat :=
  registry.create (Stream.start id .opener capacity)

/-- The current stream of a number that the peer used, with whether it is new.  A new one is
pending. -/
def findOrBegin (registry : Registry) (id : UInt64) (capacity : Nat) : Registry × Nat × Bool :=
  match registry.find? id with
  | some serial => (registry, serial, false)
  | none =>
    let (registry, serial) := registry.create (Stream.start id .acceptor capacity)
    ({ registry with pending := registry.pending ++ [id] }, serial, true)

/-- Takes a number out of those that are pending; tells whether it was. -/
def announce (registry : Registry) (id : UInt64) : Registry × Bool :=
  if registry.pending.contains id then
    ({ registry with pending := registry.pending.erase id }, true)
  else (registry, false)

/-! ### Leaving -/

/-- Removes the current stream with a number. -/
def remove (registry : Registry) (id : UInt64) : Registry :=
  { registry with
    entries := registry.entries.filter (·.1 != id)
    pending := registry.pending.filter (· != id) }

/-- Removes the current stream with a number if it is over and drained; tells whether it was. -/
def sweep (registry : Registry) (id : UInt64) : Registry × Bool :=
  match registry.find? id with
  | none => (registry, false)
  | some serial =>
    let stream := registry.stream serial
    if stream.isOver && stream.isDrained then (registry.remove id, true) else (registry, false)

/-- Removes all current streams, and hands out their serial numbers in the order of the numbers. -/
def clear (registry : Registry) : Registry × List Nat :=
  let sorted := registry.entries.mergeSort fun a b => a.1 ≤ b.1
  ({ registry with entries := [], pending := [] }, sorted.map (·.2))

/-- Severs all current streams and removes them; tells how many there were. -/
def sever (registry : Registry) : Registry × Nat :=
  let (emptied, serials) := registry.clear
  let cut (registry : Registry) (serial : Nat) :=
    registry.update serial (registry.stream serial).sever
  (serials.foldl cut emptied, serials.length)

/-! ### What the operations do to the entries -/

theorem lookup_filter_ne {entries : List (UInt64 × Nat)} {id other : UInt64} (h : other ≠ id) :
    (entries.filter (·.1 != id)).lookup other = entries.lookup other := by
  induction entries with
  | nil => rfl
  | cons e rest ih =>
    obtain ⟨key, serial⟩ := e
    by_cases hkey : key = id
    · subst hkey
      have hne : (other == key) = false := by simpa using h
      simp [List.lookup_cons, hne, ih]
    · simp [List.lookup_cons, hkey, ih]

theorem lookup_filter_self (entries : List (UInt64 × Nat)) (id : UInt64) :
    (entries.filter (·.1 != id)).lookup id = none := by
  induction entries with
  | nil => rfl
  | cons e rest ih =>
    obtain ⟨key, serial⟩ := e
    by_cases hkey : key = id
    · simp [hkey, ih]
    · have hne : (id == key) = false := by simpa using fun h => hkey h.symm
      simp [List.lookup_cons, hkey, hne, ih]

theorem find?_remove_self (registry : Registry) (id : UInt64) :
    (registry.remove id).find? id = none :=
  lookup_filter_self registry.entries id

theorem find?_remove_of_ne (registry : Registry) {id other : UInt64} (h : other ≠ id) :
    (registry.remove id).find? other = registry.find? other :=
  lookup_filter_ne h

theorem find?_create_self (registry : Registry) (stream : Stream) :
    (registry.create stream).1.find? stream.id = some (registry.create stream).2 := by
  simp [create, find?, List.lookup_append, lookup_filter_self]

theorem find?_create_of_ne (registry : Registry) {stream : Stream} {other : UInt64}
    (h : other ≠ stream.id) : (registry.create stream).1.find? other = registry.find? other := by
  have hne : (other == stream.id) = false := by simpa using h
  simp [create, find?, List.lookup_append, lookup_filter_ne h, List.lookup_cons, hne]

end Registry

end StreamMux
