/-!
# Instants

An instant is a number of whole seconds since the start of 1970 in UTC, and a number of
nanoseconds within the second. A leap second is the second before it with a billion nanoseconds or
more, so it has an instant of its own without moving any other.
-/

namespace SchemaLedger

structure Instant where
  /-- Whole seconds since the start of 1970, before which they are negative. -/
  seconds : Int
  /-- Nanoseconds within the second, a billion or more within a leap second. -/
  nanos : Nat := 0
  deriving DecidableEq

namespace Instant

/-- The instant so many milliseconds after the start of 1970. -/
def ofMillis (millis : Int) : Instant := ⟨millis.fdiv 1000, (millis.fmod 1000).toNat * 1000000⟩

/-- The whole milliseconds since the start of 1970. -/
def millis (instant : Instant) : Int := instant.seconds * 1000 + (instant.nanos / 1000000 : Nat)

end Instant

end SchemaLedger
