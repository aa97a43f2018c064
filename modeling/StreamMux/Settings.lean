import StreamMux.Fault

/-!
# Settings

The settings of one multiplexer, their usual values, and the bounds that they have to keep.
`Settings.fault?` names the first setting out of bounds, in the order in which they are checked.
-/

namespace StreamMux

structure Settings where
  /-- How long one read of the connection waits.  It keeps the loop alive to its own shutdown and is
  no deadline for the peer. -/
  readTimeout : Duration := Duration.ofMillis 100
  /-- The longest payload accepted from the peer. -/
  frameLimit : Nat := 1024 * 1024
  /-- The number of chunks that a stream queues before it is reset. -/
  queueLimit : Nat := 1024
  /-- The number of bytes asked of the connection in one read. -/
  readSize : Nat := 64 * 1024
  /-- The number of streams of the peer that may carry data before they are announced. -/
  pendingLimit : Nat := 256
  deriving DecidableEq, Repr

namespace Settings

/-- The settings of a multiplexer that is given none. -/
def usual : Settings := {}

/-! ### Bounds -/

def shortestTimeout : Duration := Duration.ofMillis 1

def longestTimeout : Duration := Duration.ofMillis 5000

/-- The largest limit on payloads. -/
def largestFrameLimit : Nat := 32 * 1024 * 1024

/-- The fewest bytes asked for in one read. -/
def smallestReadSize : Nat := 512

/-- The first setting out of bounds. -/
def fault? (settings : Settings) : Option SettingsFault :=
  let timeout := settings.readTimeout
  if timeout.toNanos < shortestTimeout.toNanos ∨ timeout.toNanos > longestTimeout.toNanos then
    some (.readTimeout timeout shortestTimeout longestTimeout)
  else if settings.frameLimit = 0 ∨ settings.frameLimit > largestFrameLimit then
    some (.frameLimit settings.frameLimit largestFrameLimit)
  else if settings.queueLimit = 0 then some .queueLimit
  else if settings.pendingLimit = 0 then some .pendingLimit
  else if settings.readSize < smallestReadSize then
    some (.readSize settings.readSize smallestReadSize)
  else none

/-- The settings keep all bounds. -/
def Valid (settings : Settings) : Prop :=
  settings.fault? = none

instance (settings : Settings) : Decidable settings.Valid :=
  inferInstanceAs (Decidable (settings.fault? = none))

theorem valid_usual : usual.Valid := by decide

end Settings

end StreamMux
