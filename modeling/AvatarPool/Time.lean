/-! # Spans of time

A span is a whole number of nanoseconds.  The clock of the pool ticks in milliseconds, so a timer
of a given span fires after that span rounded up to whole milliseconds. -/

namespace AvatarPool

/-- A span of time in nanoseconds. -/
structure Span where
  nanos : Nat
  deriving DecidableEq, Repr, Inhabited

namespace Span

def nanosPerSecond : Nat := 1000000000

def nanosPerMilli : Nat := 1000000

def ofSeconds (n : Nat) : Span := ⟨n * nanosPerSecond⟩

def ofMillis (n : Nat) : Span := ⟨n * nanosPerMilli⟩

/-- Whole seconds of the span. -/
def seconds (s : Span) : Nat := s.nanos / nanosPerSecond

/-- What is left beside the whole seconds. -/
def subsecond (s : Span) : Nat := s.nanos % nanosPerSecond

/-- The span in clock ticks: milliseconds, a started one counting whole. -/
def ticks (s : Span) : Nat := (s.nanos + (nanosPerMilli - 1)) / nanosPerMilli

/-- About thirty years, the longest sleep. -/
def farFuture : Span := ofSeconds (86400 * 365 * 30)

/-- Seconds that can be added to a reading of the clock: a reading holds fewer than `2 ^ 63`, and
the clock has run for an hour at least. -/
def clockRange : Nat := Nat.pow 2 63 - 3600

/-- The moment a sleep of this span ends if it begins at `now`. -/
def sleepFrom (now : Nat) (s : Span) : Nat := now + min s.ticks farFuture.ticks

/-- The moment a wait limited to this span is given up if it begins at `now`: its span later in
ticks, and never if that is past the clock's range. -/
def limitFrom? (now : Nat) (s : Span) : Option Nat :=
  if s.seconds < clockRange then some (now + s.ticks) else none

/-- The deadline that this span sets at `now`: its span later in ticks, except that a span past the
clock's range is cut to `farFuture`. -/
def deadlineFrom (now : Nat) (s : Span) : Nat :=
  (s.limitFrom? now).getD (now + farFuture.ticks)

/-- `n` written with exactly `width` digits, leading zeros included. -/
def padded (width n : Nat) : List Char :=
  let digits := (toString n).toList
  List.replicate (width - digits.length) '0' ++ digits

/-- Decimal places of `n` out of `10 ^ width`, without trailing zeros. -/
def fraction (width n : Nat) : List Char :=
  ((padded width n).reverse.dropWhile (· == '0')).reverse

/-- A number of units with its fraction, the point only where a fraction follows. -/
def decimal (whole : Nat) (places : List Char) : String :=
  toString whole ++ if places.isEmpty then "" else "." ++ String.ofList places

/-- **The written form**: the largest of seconds, milliseconds, microseconds and nanoseconds that
gives a whole part, with the rest as a decimal fraction and no trailing zeros. -/
def text (s : Span) : String :=
  if s.seconds > 0 then decimal s.seconds (fraction 9 s.subsecond) ++ "s"
  else if s.nanos ≥ 1000000 then
    decimal (s.nanos / 1000000) (fraction 6 (s.nanos % 1000000)) ++ "ms"
  else if s.nanos ≥ 1000 then decimal (s.nanos / 1000) (fraction 3 (s.nanos % 1000)) ++ "µs"
  else toString s.nanos ++ "ns"

end Span

end AvatarPool
