import Dmx512.Proofs.Reception.Story

/-!
# What a reachable receiver holds

Signals, timeouts and resets are all that happens to a receiver. Each keeps `WellFormed`, so
it holds of every receiver that they lead to from power-up. The lemmas below read off it what
stands in the buffers themselves, at positions that are known from the state alone: everything
behind them is left over from earlier frames.
-/

namespace Dmx512.Receiver

open Standard

/-- A receiver to which signals, timeouts and resets lead from power-up. -/
inductive Reachable : Receiver → Prop where
  | powerUp : Reachable {}
  | attend {r t : Receiver} {cause : Cause} {now : Micros} {frame : Option Frame}
      (before : Reachable r) (attended : r.attend cause now = .ok (t, frame)) : Reachable t
  | reset {r : Receiver} (before : Reachable r) : Reachable r.reset

variable {r : Receiver}

/-- Whatever happens to a receiver, it holds what its state says. -/
theorem Reachable.wellFormed (h : r.Reachable) : r.WellFormed := by
  induction h with
  | powerUp => exact .of_idle rfl rfl
  | attend _ attended ih => exact ih.of_attend attended
  | reset => exact .reset _

/-- The bytes that have arrived are those in front of the position. -/
theorem getElem?_rdmBytes {i : Nat} (arrived : i < r.index) :
    r.rdmBytes[i]? = r.rdmBuffer[i]? := by
  rw [rdmBytes, List.getElem?_take_of_lt arrived, Vector.getElem?_toList]

namespace WellFormed

/-- Once the high byte of a checksum has arrived, the sum of the message in front of it is kept
less that byte. -/
theorem exists_high (h : r.WellFormed) (state : r.state = .checksumLow) :
    ∃ high, r.rdmBuffer[r.index - 1]? = some high ∧
      r.checksum = Dmx512.checksum (r.rdmBuffer.toList.take (r.index - 1)) -
        256 * high.toUInt16 := by
  obtain ⟨message, high, arrived, _, _, index, _, sum⟩ := h.holds state
  have before : r.index - 1 < r.index := by omega
  have front : r.rdmBuffer.toList.take (r.index - 1) = message := by
    have shorter : r.rdmBytes.take (r.index - 1) = r.rdmBuffer.toList.take (r.index - 1) := by
      rw [rdmBytes, List.take_take, Nat.min_eq_left (Nat.le_of_lt before)]
    rw [← shorter, arrived, index, Nat.add_sub_cancel, List.take_left]
  refine ⟨high, ?_, ?_⟩
  · rw [← getElem?_rdmBytes before, arrived, index, Nat.add_sub_cancel]
    simp
  · rw [front, sum, shiftLeft_eight, UInt16.mul_comm]

end WellFormed

/-- Where the preamble of a discovery response has ended, and whatever of it has arrived since. -/
theorem PreambleEnds.buffer {length : Nat} (h : r.PreambleEnds length)
    (arrived : length ≤ r.index) :
    2 ≤ length ∧ length ≤ preambleMax + 1 ∧
      (r.rdmBuffer[length - 1]? = some delimiterByte ∨ length = preambleMax + 1) := by
  obtain ⟨two, most, ending⟩ := h
  have inside : length - 1 < r.index := by omega
  rw [← getElem?_rdmBytes inside]
  exact ⟨two, most, ending⟩

end Dmx512.Receiver
