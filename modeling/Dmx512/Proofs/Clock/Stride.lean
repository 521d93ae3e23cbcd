import Dmx512.Clock
import Mathlib.Data.Int.GCD
import Mathlib.Data.Nat.Prime.Basic

/-!
# A clock of constant step

A clock that moves by the same step at every reading is back where it was after `2 ^ 32`
readings at the latest. What it tells to have passed since one of them is a multiple of
the greatest divisor that its step and its range have in common. The greatest of these
multiples below the range is told sooner or later; nothing beyond it is ever told.
-/

namespace Dmx512

/-- What a clock of constant step tells to have passed after so many readings. -/
def strides (step : Micros) (count : Nat) : Micros := UInt32.ofNat count * step

/-- The most that a clock of constant step ever tells to have passed. -/
def farthest (step : Micros) : Nat := 4294967296 - Nat.gcd step.toNat 4294967296

variable {step : Micros}

@[simp] theorem strides_zero (step : Micros) : strides step 0 = 0 := by
  rw [strides]
  grind

theorem strides_succ (step : Micros) (count : Nat) :
    strides step (count + 1) = strides step count + step := by
  rw [strides, strides, UInt32.ofNat_add]
  grind

theorem toNat_strides (step : Micros) (count : Nat) :
    (strides step count).toNat = count * step.toNat % 4294967296 := by
  rw [strides, UInt32.toNat_mul, UInt32.toNat_ofNat', Nat.mod_mul_mod]

/-- What is told is a multiple of a divisor of the range, and below the range. -/
theorem strides_le_farthest (step : Micros) (count : Nat) :
    (strides step count).toNat ≤ farthest step := by
  have common : Nat.gcd step.toNat 4294967296 ∣ (strides step count).toNat := by
    rw [toNat_strides, Nat.dvd_mod_iff (Nat.gcd_dvd_right _ _)]
    exact (Nat.gcd_dvd_left _ _).mul_left count
  have below : (strides step count).toNat < 4294967296 := (strides step count).toNat_lt
  have rest := Nat.le_of_dvd (Nat.sub_pos_of_lt below)
    (Nat.dvd_sub (Nat.gcd_dvd_right step.toNat 4294967296) common)
  rw [farthest]
  omega

/-- A clock that moves tells the farthest sooner or later. -/
theorem exists_strides_eq_farthest (moves : 0 < step.toNat) :
    ∃ count, 0 < count ∧ count ≤ 4294967296 ∧ (strides step count).toNat = farthest step := by
  have small : Nat.gcd step.toNat 4294967296 < 4294967296 :=
    Nat.lt_of_le_of_lt (Nat.gcd_le_left _ moves) step.toNat_lt
  have positive : 0 < Nat.gcd step.toNat 4294967296 := Nat.gcd_pos_of_pos_left _ moves
  obtain ⟨back, within, told⟩ := Nat.exists_mul_mod_eq_gcd small
  -- As many readings before the clock is back, it tells as much less than its range.
  refine ⟨4294967296 - back, by omega, by omega, ?_⟩
  have split : (4294967296 - back) * step.toNat + step.toNat * back =
      4294967296 * step.toNat := by
    rw [Nat.mul_comm step.toNat, ← Nat.add_mul, Nat.sub_add_cancel (Nat.le_of_lt within)]
  rw [toNat_strides, farthest]
  omega

/-- A step below half of the range leaves three quarters of it to be told. -/
theorem le_farthest (moves : 0 < step.toNat) (short : step.toNat < 2147483648) :
    3221225472 ≤ farthest step := by
  have common : Nat.gcd step.toNat (2 ^ 32) ∣ 2 ^ 32 := Nat.gcd_dvd_right _ _
  obtain ⟨exponent, _, power⟩ := (Nat.dvd_prime_pow Nat.prime_two).mp common
  have bound : Nat.gcd step.toNat (2 ^ 32) ≤ step.toNat := Nat.gcd_le_left _ moves
  have less : exponent < 31 := by
    apply (Nat.pow_lt_pow_iff_right (by decide : 1 < 2)).mp
    omega
  have quarter : 2 ^ exponent ≤ 2 ^ 30 := Nat.pow_le_pow_right (by decide) (by omega)
  have range : (4294967296 : Nat) = 2 ^ 32 := by decide
  rw [farthest, range, power]
  omega

end Dmx512
