import Dmx512.Clock

/-!
# Readings of the clock

Readings wrap, and so do their differences. What passes between readings in a row adds
up to no less than what the first and the last of them tell; and a deadline that is met
tells how much has passed at least, where it was no further ahead than half the range of
the clock.
-/

namespace Dmx512

/-- Intervals do not tell by how much a clock is ahead. -/
theorem elapsed_add_right (now since offset : Micros) :
    elapsed (now + offset) (since + offset) = elapsed now since := by
  rw [elapsed, elapsed]
  grind

theorem isDue_add_right (now deadline offset : Micros) :
    isDue (now + offset) (deadline + offset) = isDue now deadline := by
  have same : now + offset - (deadline + offset) = now - deadline := by grind
  rw [isDue, isDue, same]

/-- What passes between two readings by way of a third is no less than what they tell. -/
theorem elapsed_le_add (now between since : Micros) :
    (elapsed now since).toNat ≤ (elapsed now between).toNat + (elapsed between since).toNat := by
  have sum : elapsed now since = elapsed now between + elapsed between since := by
    rw [elapsed, elapsed, elapsed]
    grind
  rw [sum, UInt32.toNat_add]
  exact Nat.mod_le _ _

/-- A time that is less than half the range of the clock ahead is not due. -/
theorem isDue_of_ahead {now deadline : Micros} (ahead : 0 < (elapsed deadline now).toNat)
    (near : elapsed deadline now < 2147483648) : isDue now deadline = false := by
  have half : (2147483648 : Micros).toNat = 2147483648 := rfl
  have zero : (0 : Micros).toNat = 0 := rfl
  have near' : (elapsed deadline now).toNat < 2147483648 := UInt32.lt_iff_toNat_lt.mp near
  have behind : now - deadline = 0 - elapsed deadline now := by
    rw [elapsed]
    grind
  rw [isDue, decide_eq_false_iff_not, UInt32.lt_iff_toNat_lt, behind, UInt32.toNat_sub, half]
  omega

/-- Where a deadline no further ahead than half the range of the clock is met, so much has
passed. -/
theorem le_elapsed_of_isDue {now start micros : Micros} (short : micros.toNat ≤ 2147483648)
    (due : isDue now (start + micros) = true) : micros.toNat ≤ (elapsed now start).toNat := by
  have half : (2147483648 : Micros).toNat = 2147483648 := rfl
  have rest : now - (start + micros) = elapsed now start - micros := by
    rw [elapsed]
    grind
  rw [isDue, decide_eq_true_iff, UInt32.lt_iff_toNat_lt, rest, UInt32.toNat_sub, half] at due
  have bound := (elapsed now start).toNat_lt
  omega

/-- A deadline is met by the first reading at which so much has passed, if the clock was
read often enough. -/
theorem isDue_of_passed {now start micros : Micros} {passed : Nat}
    (shows : now = start + UInt32.ofNat passed) (beyond : micros.toNat ≤ passed)
    (near : passed < micros.toNat + 2147483648) : isDue now (start + micros) = true := by
  have half : (2147483648 : Micros).toNat = 2147483648 := rfl
  have rest : now - (start + micros) = UInt32.ofNat passed - micros := by
    rw [shows]
    grind
  rw [isDue, decide_eq_true_iff, UInt32.lt_iff_toNat_lt, rest, UInt32.toNat_sub, half,
    UInt32.toNat_ofNat']
  have bound := micros.toNat_lt
  omega

/-- What has passed is told by the readings, while it is within the range of the clock. -/
theorem elapsed_of_passed {now start : Micros} {passed : Nat}
    (shows : now = start + UInt32.ofNat passed) (small : passed < 4294967296) :
    (elapsed now start).toNat = passed := by
  have same : elapsed now start = UInt32.ofNat passed := by
    rw [elapsed, shows]
    grind
  rw [same, UInt32.toNat_ofNat']
  omega

/-- What passes until the next reading adds to what has passed. -/
theorem passed_next {now start : Micros} {passed : Nat}
    (shows : now = start + UInt32.ofNat passed) (next : Micros) :
    next = start + UInt32.ofNat (passed + (elapsed next now).toNat) := by
  rw [UInt32.ofNat_add, UInt32.ofNat_toNat, elapsed, shows]
  grind

end Dmx512
