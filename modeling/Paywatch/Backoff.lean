import Paywatch.Data.Basic

/-!
# Growing delays

The delays between attempts grow by a factor up to a largest one. Delays
are whole nanoseconds; the factor is a float, and so is the product before
its fraction is cut off.
-/

namespace Paywatch

structure BackoffSettings where
  initialMillis : UInt64 := 500
  maxMillis : UInt64 := 60000
  multiplier : Float := 2.0
  /-- The share by which a delay may vary at random. -/
  randomizationFactor : Float := 0.2
deriving Inhabited

/-- Nanoseconds in a millisecond. -/
def nanosPerMilli : Nat := 1000000

/-- The delays of one series of attempts, in nanoseconds. -/
structure Backoff where
  settings : BackoffSettings
  current : Nat
deriving Inhabited

namespace Backoff

def initial (s : BackoffSettings) : Nat := s.initialMillis.toNat * nanosPerMilli

def largest (s : BackoffSettings) : Nat := s.maxMillis.toNat * nanosPerMilli

def start (s : BackoffSettings) : Backoff := ⟨s, initial s⟩

/-- A number of nanoseconds as a float: whole seconds and the rest are added as floats. -/
def toFloat (nanos : Nat) : Float :=
  Float.ofNat (nanos / 1000000000) * 1000000000.0 + Float.ofNat (nanos % 1000000000)

/-- The whole nanoseconds of a float. The seconds and the rest are cut off separately. -/
def ofFloat (x : Float) : Nat :=
  (x / 1000000000.0).toUInt64.toNat * 1000000000 + x.toUInt64.toNat % 1000000000

/-- The delay after a delay. -/
def grow (s : BackoffSettings) (current : Nat) : Nat :=
  if toFloat current >= toFloat (largest s) / s.multiplier then largest s
  else ofFloat (toFloat current * s.multiplier)

/-- The delay of the next attempt, without its random part. -/
def next (b : Backoff) : Nat × Backoff :=
  (ofFloat (toFloat b.current - b.settings.randomizationFactor * toFloat b.current),
    { b with current := grow b.settings b.current })

def reset (b : Backoff) : Backoff := { b with current := initial b.settings }

end Backoff

end Paywatch
