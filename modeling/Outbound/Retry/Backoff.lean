import Outbound.Json.Shape

/-!
# Growing waits

The wait after a failure starts at some interval and grows by a factor up to a longest one. A
wait is drawn from around the interval; a draw of one half gives the interval itself. Intervals
are kept in whole nanoseconds and grow in floating point.
-/

namespace Outbound

/-- A length of time in nanoseconds. -/
abbrev Nanos := Nat

namespace Nanos

def ofMillis (ms : Nat) : Nanos := ms * 1000000

/-- Whole milliseconds, a part of one not counted. -/
def millis (n : Nanos) : Nat := n / 1000000

/-- The milliseconds a clock of that step waits: a part of one counts as one. -/
def ticks (n : Nanos) : Nat := (n + 999999) / 1000000

/-- The seconds and the rest are rounded apart. -/
def toFloat (n : Nanos) : Float :=
  Nat.toFloat (n / 1000000000) * 1e9 + Nat.toFloat (n % 1000000000)

/-- Whole seconds and the rest, both rounded down and not below zero. -/
def ofFloat (x : Float) : Nanos :=
  (x / 1e9).toUInt64.toNat * 1000000000 + x.toUInt64.toNat % 1000000000

end Nanos

structure BackoffPolicy where
  initial : Nanos := .ofMillis 500
  /-- How far from the interval a wait may lie, as a part of it. -/
  jitter : Float := 0.5
  multiplier : Float := 1.5
  longest : Nanos := .ofMillis 60000
  /-- A wait that would end later than this after the start is not begun. -/
  limit : Nanos := .ofMillis 900000
  /-- How many attempts may follow the first one; none means any number. -/
  maxRetries : Option Nat := none

namespace BackoffPolicy

/-- The wait that a draw between 0 and 1 picks from around an interval. -/
def wait (p : BackoffPolicy) (draw : Float) (interval : Nanos) : Nanos :=
  let middle := interval.toFloat
  let reach := p.jitter * middle
  let low := middle - reach
  let high := middle + reach
  .ofFloat (low + draw * (high - low + 1.0))

/-- The interval after this one. -/
def grow (p : BackoffPolicy) (interval : Nanos) : Nanos :=
  if interval.toFloat ≥ p.longest.toFloat / p.multiplier then p.longest
  else .ofFloat (interval.toFloat * p.multiplier)

/-- The next wait and the interval after it, unless the wait would end too late. -/
def next? (p : BackoffPolicy) (elapsed : Nanos) (draw : Float) (interval : Nanos) :
    Option (Nanos × Nanos) :=
  let wait := p.wait draw interval
  if elapsed + wait ≤ p.limit then some (wait, p.grow interval) else none

end BackoffPolicy

/-- How waits are asked for. Zero stands for the default. -/
structure BackoffSettings where
  initialMs : Nat := 0
  jitter : Float := 0
  multiplier : Float := 0
  longestMs : Nat := 0
  limitMs : Nat := 0
  maxRetries : Nat := 0

namespace BackoffSettings

private def millisOr (ms : Nat) (default : Nanos) : Nanos :=
  if ms = 0 then default else .ofMillis ms

private def floatOr (x default : Float) : Float :=
  if x == 0 then default else x

def policy (s : BackoffSettings) : BackoffPolicy :=
  let default : BackoffPolicy := {}
  { initial := millisOr s.initialMs default.initial
    jitter := floatOr s.jitter default.jitter
    multiplier := floatOr s.multiplier default.multiplier
    longest := millisOr s.longestMs default.longest
    limit := millisOr s.limitMs default.limit
    maxRetries := if s.maxRetries = 0 then none else some s.maxRetries }

def fields {σ : Type} (format : Format σ) : List (Field σ BackoffSettings) :=
  [{ name := "initial_interval_ms", set := fun r v ↦ do
      return { r with initialMs := ← format.unsigned "u64" v } },
    { name := "randomization_factor", set := fun r v ↦ do
      return { r with jitter := ← format.float v } },
    { name := "multiplier", set := fun r v ↦ do
      return { r with multiplier := ← format.float v } },
    { name := "max_interval_ms", set := fun r v ↦ do
      return { r with longestMs := ← format.unsigned "u64" v } },
    { name := "max_elapsed_time_ms", set := fun r v ↦ do
      return { r with limitMs := ← format.unsigned "u64" v } },
    { name := "max_retries", set := fun r v ↦ do
      return { r with maxRetries := ← format.unsigned "u64" v } }]

def read {σ : Type} (format : Format σ) (v : σ) : Shaped BackoffSettings :=
  format.record "BackoffCfg" (fields format) {} v

end BackoffSettings

end Outbound
