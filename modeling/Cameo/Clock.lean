import Mathlib.Data.Int.Basic
import Mathlib.Tactic.Ring

/-!
# Clocks and machine arithmetic

A `SystemTime` is a wall-clock reading in nanoseconds relative to the Unix epoch.  It may lie
before the epoch and successive readings may go backwards, so every elapsed time is computed from
two explicit readings.  An `Instant` is a reading of the monotonic clock; it has no meaning across
a restart of the daemon.
-/

namespace Cameo

/-- A wall-clock reading, in nanoseconds relative to the Unix epoch. -/
abbrev SystemTime := ℤ

/-- A monotonic-clock reading, in nanoseconds. -/
abbrev Instant := ℕ

abbrev Duration := ℕ

/-- `Duration::from_secs`. -/
def Duration.fromSecs (seconds : ℕ) : Duration := seconds * 1000000000

/-- `Duration::from_millis`. -/
def Duration.fromMillis (milliseconds : ℕ) : Duration := milliseconds * 1000000

/-- `Duration::as_secs`. -/
def Duration.asSecs (duration : Duration) : ℕ := duration / 1000000000

/-- `SystemTime::elapsed` of an earlier reading: an error, here `none`, when the clock went
backwards. -/
def SystemTime.elapsed (earlier now : SystemTime) : Option Duration :=
  if earlier ≤ now then some (now - earlier).toNat else none

/-- `Instant::elapsed`, which saturates at zero. -/
def Instant.elapsed (earlier now : Instant) : Duration := now - earlier

/-- `epoch_seconds`: whole seconds since the epoch, zero for a clock set before it. -/
def epochSeconds (now : SystemTime) : ℕ := (now / 1000000000).toNat

/-- The largest value of a `u64`. -/
def u64Max : ℕ := 2 ^ 64 - 1

/-- `u64::saturating_add`. -/
def saturatingAdd (a b : ℕ) : ℕ := min (a + b) u64Max

/-- `u64::saturating_mul`. -/
def saturatingMul (a b : ℕ) : ℕ := min (a * b) u64Max

/-- A saturated sum stays within a bound below the largest value exactly when the sum does. -/
theorem saturatingAdd_le_iff {a b bound : ℕ} (h : bound < u64Max) :
    saturatingAdd a b ≤ bound ↔ a + b ≤ bound := by
  unfold saturatingAdd
  omega

def roundHalfEven (num den : ℕ) : ℕ :=
  let quotient := num / den
  let twice := 2 * (num % den)
  if twice < den ∨ (twice = den ∧ quotient % 2 = 0) then quotient else quotient + 1

/-- A `u64` as the nearest `f64`, which is again an integer. -/
def asF64 (n : ℕ) : ℕ :=
  let unit := 2 ^ (n.log2 - 52)
  roundHalfEven n unit * unit

/-- The bit pattern of an integer as an `f64`. -/
def f64Bits (i : ℤ) : ℕ :=
  let magnitude := asF64 i.natAbs
  let exponent := magnitude.log2
  if magnitude = 0 then 0
  else (if i < 0 then 2 ^ 63 else 0) + (exponent + 1023) * 2 ^ 52 +
    (magnitude * 2 ^ 52 / 2 ^ exponent - 2 ^ 52)

/-- The bit patterns of the `f64` values that are neither infinite nor NaN. -/
def isFiniteF64 (bits : ℕ) : Bool := bits < 2 ^ 64 && bits / 2 ^ 52 % 2 ^ 11 ≠ 2 ^ 11 - 1

end Cameo
