import Mathlib.Algebra.Group.Nat.Defs
import Mathlib.Algebra.Ring.Int.Defs
import SwarmExporter.Lib.FinMap

/-!
# Values the exporter is made of

The crate's maps, times and gauge values.

* A `BTreeMap` and a `HashMap` are both a `Map`. A `BTreeMap` iterates in key order, which is `toList`;
  the order in which a `HashMap` iterates is not a function of its content, so an operation that
  iterates one takes the order as an argument (`Enumerates`).
* `Timestamp` and `Instant` are readings of the wall clock and of the monotonic clock, in
  nanoseconds.
* A gauge value is an `f64` in the crate. Every value the modelled families hold is whole, so it is
  an `Int` here, and `fromInt` rounds as the conversion to `f64` does.
-/

namespace SwarmExporter

open Lib

/-- Labels, as the daemon sends them, and the label sets of the series. -/
abbrev Labels := Map String String

/-- Nanoseconds since the Unix epoch. -/
abbrev Timestamp := Int

/-- Nanoseconds of the monotonic clock. It has no last instant: an `Instant + Duration` that overflows,
which panics in the crate, is left out. -/
abbrev Instant := Nat

/-- A length of time, in nanoseconds. -/
abbrev Duration := Nat

namespace Duration

def fromMillis (millis : Nat) : Duration := millis * 1000000

def fromSecs (secs : Nat) : Duration := secs * 1000000000

/-- The longest duration: `u64::MAX` seconds and 999999999 nanoseconds. -/
def max : Duration := fromSecs (2 ^ 64 - 1) + 999999999

def saturatingMul (duration : Duration) (factor : Nat) : Duration :=
  min (duration * factor) max

end Duration

/-- The value of a gauge. -/
abbrev Gauge := Int

/-- A whole number as a gauge value: the nearest `f64`, ties to the even one. -/
def fromInt (value : Int) : Gauge :=
  let magnitude := value.natAbs
  -- An `f64` holds 53 significant bits; what is cut below them is rounded off.
  let unit := 2 ^ (magnitude.log2 + 1 - 53)
  let quotient := magnitude / unit
  let cut := magnitude % unit
  let rounded :=
    if unit < 2 * cut ∨ (2 * cut = unit ∧ quotient % 2 = 1) then quotient + 1 else quotient
  value.sign * (rounded * unit : Nat)

end SwarmExporter
