/-
SongSheet/Clock.lean

Time.

Instants and lengths of time are whole nanoseconds; instants count from the
origin of a playback.  A number of seconds becomes nanoseconds by rounding its
exact value once, a half to the even nanosecond, and is refused when it is
negative, not finite, or takes `2 ^ 64` seconds or more.

Timers fire on a grid of whole milliseconds: at their deadline, rounded up.
-/
import SongSheet.Binary.Value

namespace SongSheet.Clock

/-- Nanoseconds in a second. -/
def second : Nat := 1000000000

/-- Nanoseconds in a millisecond. -/
def millisecond : Nat := 1000000

/-- The nanoseconds of a number of seconds. -/
def nanoseconds (seconds : Double) : Option Nat :=
  if !seconds.isFinite || (seconds.negative && !seconds.isZero) then none
  else
    let n := roundHalfEven (seconds.units * second) Format.double.oneUnits
    if n < Nat.pow 2 64 * second then some n else none

/-- The instant at which a timer with a deadline fires. -/
def tick (deadline : Nat) : Nat :=
  (deadline + (millisecond - 1)) / millisecond * millisecond

/-- The first instant that is too late to be represented. -/
def horizon : Nat := Nat.pow 2 63 * second

theorem le_tick (d : Nat) : d ≤ tick d := by
  simp only [tick, millisecond]; omega

theorem tick_lt_add (d : Nat) : tick d < d + millisecond := by
  simp only [tick, millisecond]; omega

/-- Timers fire at whole milliseconds. -/
theorem millisecond_dvd_tick (d : Nat) : tick d % millisecond = 0 := by
  simp [tick]

/-- An instant of the grid is where it is. -/
theorem tick_of_mod_eq_zero {d : Nat} (h : d % millisecond = 0) : tick d = d := by
  simp only [tick, millisecond] at h ⊢; omega

/-- Later deadlines do not fire earlier. -/
theorem tick_mono {d e : Nat} (h : d ≤ e) : tick d ≤ tick e := by
  simp only [tick, millisecond]; omega

end SongSheet.Clock
