/-!
# The microsecond clock

All times are readings of one free-running 32-bit microsecond counter. Readings
wrap, so two of them are compared through their difference: `elapsed` is exact
for intervals below `2 ^ 32` microseconds, and `isDue` decides which of two
instants less than `2 ^ 31` microseconds apart comes first.
-/

namespace Dmx512

/-- A reading of the microsecond counter, or an interval between two readings. -/
abbrev Micros := UInt32

/-- The microseconds from `since` to `now`, across wraparound. -/
def elapsed (now since : Micros) : Micros := now - since

/-- Whether `deadline` has been reached at `now`: the difference, read as a
signed number, is not negative. -/
def isDue (now deadline : Micros) : Bool := decide (now - deadline < 2147483648)

@[simp] theorem elapsed_self (t : Micros) : elapsed t t = 0 := by
  simp [elapsed]

@[simp] theorem isDue_self (t : Micros) : isDue t t = true := by
  simp [isDue]

end Dmx512
