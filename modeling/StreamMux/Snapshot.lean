import StreamMux.Counters
import StreamMux.Duration

/-!
# Snapshots

A snapshot holds the counters of a connection together with the number of its current streams, the
time that it has been up, and the bytes per second that this makes in each direction.
-/

namespace StreamMux

structure Snapshot where
  counters : Counters
  openStreams : Nat
  rateIn : Float
  rateOut : Float
  uptime : Duration

namespace Snapshot

/-- Bytes per second; nothing is a rate of zero over no time. -/
def rate (bytes : Nat) (time : Duration) : Float :=
  let seconds := time.toSeconds
  if seconds > 0 then bytes.toUInt64.toFloat / seconds else 0

def take (counters : Counters) (uptime : Duration) (openStreams : Nat) : Snapshot :=
  { counters, openStreams, uptime
    rateIn := rate counters.bytesIn uptime
    rateOut := rate counters.bytesOut uptime }

end Snapshot

end StreamMux
