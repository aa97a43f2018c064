/-!
# Durations

A duration is a number of seconds and a number of nanoseconds below one second.  Its text names the
largest of the units s, ms, µs and ns of which it holds at least one, followed by what is left as a
decimal fraction without trailing zeros.
-/

namespace StreamMux

structure Duration where
  secs : Nat
  nanos : Nat
  nanos_lt : nanos < 1000000000 := by decide
  deriving DecidableEq, Repr

namespace Duration

/-- The duration of `secs` seconds and `nanos` nanoseconds; whole seconds among the nanoseconds
carry over. -/
def ofParts (secs nanos : Nat) : Duration :=
  ⟨secs + nanos / 1000000000, nanos % 1000000000, Nat.mod_lt _ (by decide)⟩

def ofMillis (millis : Nat) : Duration :=
  ofParts 0 (millis * 1000000)

/-- The whole duration in nanoseconds. -/
def toNanos (duration : Duration) : Nat :=
  duration.secs * 1000000000 + duration.nanos

theorem toNanos_ofParts (secs nanos : Nat) :
    (ofParts secs nanos).toNanos = secs * 1000000000 + nanos := by
  have := Nat.div_add_mod nanos 1000000000
  simp only [toNanos, ofParts]
  omega

/-! ### Text -/

/-- The digits of `value`, filled up with zeros in front to `width` places. -/
def paddedDigits (width value : Nat) : List Char :=
  let digits := Nat.toDigits 10 value
  List.replicate (width - digits.length) '0' ++ digits

/-- `whole` and the fraction `rest / 10 ^ width` behind it, without trailing zeros and without a
point where nothing follows it. -/
def decimalText (whole rest width : Nat) : String :=
  let fraction := ((paddedDigits width rest).reverse.dropWhile (· == '0')).reverse
  toString whole ++ (if rest = 0 then "" else String.ofList ('.' :: fraction))

def text (duration : Duration) : String :=
  if duration.secs > 0 then decimalText duration.secs duration.nanos 9 ++ "s"
  else if duration.nanos ≥ 1000000 then
    decimalText (duration.nanos / 1000000) (duration.nanos % 1000000) 6 ++ "ms"
  else if duration.nanos ≥ 1000 then
    decimalText (duration.nanos / 1000) (duration.nanos % 1000) 3 ++ "µs"
  else toString duration.nanos ++ "ns"

/-! ### Seconds as a floating-point number -/

/-- The duration in seconds: the seconds, plus the nanoseconds divided by a thousand million. -/
def toSeconds (duration : Duration) : Float :=
  duration.secs.toUInt64.toFloat + duration.nanos.toUInt64.toFloat / 1e9

end Duration

end StreamMux
