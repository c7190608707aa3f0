import SceneLocks.Number.Binary64

/-!
# Durations

Spans of time in whole nanoseconds, up to just below `2 ^ 64` seconds, and the clock they
are added to. The clock counts seconds in a signed 64-bit word and ticks in milliseconds:
an instant past its range does not exist. Sleeps are left to a runtime, of which only this is
supposed: a sleep ends at the first tick that is not before its deadline, or when the longest
sleep of the runtime is over, whichever comes first.
-/

namespace SceneLocks.Time

open Number

/-! ## Units, in nanoseconds -/

/-- A microsecond. -/
abbrev microsecond : Nat := 1000

/-- A millisecond. -/
abbrev millisecond : Nat := 1000000

/-- A second. -/
abbrev second : Nat := 1000000000

/-! ## Durations -/

/-- Durations end here, at `2 ^ 64` seconds. -/
abbrev durationRange : Nat := 18446744073709551616 * second

/-- A non-negative span of time. -/
structure Duration where
  nanos : Nat
  nanos_lt : nanos < durationRange
deriving DecidableEq

namespace Duration

/-- No time at all. -/
def zero : Duration := ⟨0, by decide⟩

/-- The longest duration. -/
def longest : Duration := ⟨durationRange - 1, by decide⟩

instance : Inhabited Duration := ⟨zero⟩

/-- A number of nanoseconds, or the longest duration if it is too large. -/
def ofNanos (n : Nat) : Duration :=
  if h : n < durationRange then ⟨n, h⟩ else longest

def ofMillis (n : Nat) : Duration := ofNanos (n * millisecond)

def ofMicros (n : Nat) : Duration := ofNanos (n * microsecond)

/-- A number of seconds to the nearest nanosecond; negative, unbounded and undefined
numbers are no duration. -/
def ofSeconds? : Binary64 → Option Duration
  | .finite negative mantissa exponent =>
    if negative ∧ mantissa ≠ 0 then none
    else
      let nanos :=
        if 0 ≤ exponent then mantissa * twoPow exponent.toNat * second
        else roundQuotient (mantissa * second) (twoPow (-exponent).toNat)
      if h : nanos < durationRange then some ⟨nanos, h⟩ else none
  | _ => none

/-- Like `ofSeconds?`, but too large a number saturates and any other failure is zero. -/
def ofSeconds (seconds : Binary64) : Duration :=
  (ofSeconds? seconds).getD (if Binary64.nought.lt seconds then longest else zero)

/-- A duration as the number of seconds nearest to it. -/
def seconds (d : Duration) : Binary64 :=
  (Binary64.ofInt (d.nanos / second)).add
    ((Binary64.ofInt (d.nanos % second)).div (.ofInt second))

/-- A duration stretched by a factor, unless it gets too long. -/
def scale? (d : Duration) (factor : Binary64) : Option Duration :=
  ofSeconds? (factor.mul d.seconds)

def isZero (d : Duration) : Bool := d.nanos == 0

/-- Whole milliseconds, the rest dropped. -/
def millis (d : Duration) : Nat := d.nanos / millisecond

/-- Seconds with nine decimal places. -/
def text (d : Duration) : String :=
  let digits := Nat.toDigits 10 (d.nanos % second)
  toString (d.nanos / second) ++ "." ++
    String.ofList (List.replicate (9 - digits.length) '0' ++ digits)

end Duration

/-! ## The clock -/

/-- A point in time, in nanoseconds since the start. -/
abbrev Instant := Nat

/-- The instants that the clock can represent end here, at `2 ^ 63` seconds. -/
abbrev clockRange : Instant := 9223372036854775808 * second

/-- The instant a duration after another, if the clock can represent it. -/
def Instant.after? (now : Instant) (d : Duration) : Option Instant :=
  if now + d.nanos < clockRange then some (now + d.nanos) else none

/-- The first tick, in milliseconds, that is not before an instant. -/
def Instant.tick (t : Instant) : Nat := (t + (millisecond - 1)) / millisecond

/-- The instant of a tick. -/
def Instant.ofTick (tick : Nat) : Instant := tick * millisecond

/-- The runtime that sleeps are left to. -/
structure Runtime where
  /-- No sleep takes more ticks than this. By default it is thirty years. -/
  longestSleep : Nat := 30 * 365 * 86400 * 1000
deriving DecidableEq, Repr

/-- The tick at which a sleep that starts at tick `now` ends. -/
def Runtime.wakeTick (r : Runtime) (now : Nat) (d : Duration) : Nat :=
  min (Instant.ofTick now + d.nanos).tick (now + r.longestSleep)

end SceneLocks.Time
