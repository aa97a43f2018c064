import StreamMux.Json.Fields
import StreamMux.Settings
import StreamMux.Snapshot

/-!
# Durations, settings, counters and snapshots in JSON

Each of them is a record.  Settings that are not given keep their usual values; durations, counters
and snapshots have to be complete.  A duration admits no names besides its own; its nanoseconds
carry over into the seconds.
-/

namespace StreamMux

open Json (Value)

/-! ### Durations -/

namespace Duration

def fieldNames : List String := ["secs", "nanos"]

def ofJson? (value : Value) : Option Duration := do
  match ← value.allFields? fieldNames true with
  | [secs, nanos] =>
    let secs ← secs.word?
    let nanos ← nanos.natural? UInt32.size
    let duration := ofParts secs nanos
    if duration.secs < UInt64.size then some duration else none
  | _ => none

def json (duration : Duration) : String :=
  Json.objectText (fieldNames.zip [toString duration.secs, toString duration.nanos])

end Duration

/-! ### Settings -/

namespace Settings

def fieldNames : List String :=
  ["read_timeout", "max_frame_len", "max_buffered_chunks", "read_chunk_size", "max_pending_streams"]

/-- The value of a field that may be missing. -/
def field? {α : Type} (read : Value → Option α) (usual : α) : Option Value → Option α
  | none => some usual
  | some value => read value

def ofJson? (value : Value) : Option Settings := do
  match ← value.fields? fieldNames false with
  | [readTimeout, frameLimit, queueLimit, readSize, pendingLimit] =>
    some {
      readTimeout := ← field? Duration.ofJson? usual.readTimeout readTimeout
      frameLimit := ← field? Value.word? usual.frameLimit frameLimit
      queueLimit := ← field? Value.word? usual.queueLimit queueLimit
      readSize := ← field? Value.word? usual.readSize readSize
      pendingLimit := ← field? Value.word? usual.pendingLimit pendingLimit }
  | _ => none

def json (settings : Settings) : String :=
  Json.objectText (fieldNames.zip
    [settings.readTimeout.json, toString settings.frameLimit, toString settings.queueLimit,
      toString settings.readSize, toString settings.pendingLimit])

def ofText? (text : String) : Option Settings :=
  Value.ofText? text >>= ofJson?

end Settings

/-! ### Counters -/

namespace Counters

def ofJson? (value : Value) : Option Counters := do
  ofValues? (← (← value.allFields? names false).mapM Value.word?)

def json (counters : Counters) : String :=
  Json.objectText (names.zip (counters.values.map toString))

def ofText? (text : String) : Option Counters :=
  Value.ofText? text >>= ofJson?

end Counters

/-! ### Snapshots -/

namespace Snapshot

/-- The names of the fields: those of the counters, and four more. -/
def fieldNames : List String :=
  Counters.names ++
    ["open_streams", "throughput_in_bytes_per_sec", "throughput_out_bytes_per_sec", "uptime"]

def ofJson? (value : Value) : Option Snapshot := do
  let fields ← value.allFields? fieldNames false
  let counters ← (fields.take Counters.names.length).mapM Value.word?
  match fields.drop Counters.names.length with
  | [openStreams, rateIn, rateOut, uptime] =>
    some {
      counters := ← Counters.ofValues? counters
      openStreams := ← openStreams.word?
      rateIn := ← rateIn.float?
      rateOut := ← rateOut.float?
      uptime := ← Duration.ofJson? uptime }
  | _ => none

def ofText? (text : String) : Option Snapshot :=
  Value.ofText? text >>= ofJson?

end Snapshot

end StreamMux
