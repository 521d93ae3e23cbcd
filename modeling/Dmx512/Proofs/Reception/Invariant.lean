import Dmx512.Rdm.Message
import Dmx512.Reception.Signal

/-!
# The invariant of a receiver

A receiver reuses its buffers without clearing them, so what it holds is told by
its state and its position together. `Receiver.WellFormed` says what: which
bytes have arrived, what their running sum is, how far a section of a discovery
response has come, and when a deadline is pending. Every signal and every
timeout keeps it, and none of them is a fault where it holds.
-/

namespace Dmx512

open Standard

namespace Buffer

variable {n : Nat} (buffer : Buffer n)

/-- Writing behind the first `i` bytes adds one byte to them. -/
theorem take_set (i : Nat) (byte : UInt8) (h : i < n) :
    (buffer.set i byte h).toList.take (i + 1) = buffer.toList.take i ++ [byte] := by
  rw [Vector.toList_set, List.take_add_one, List.take_set_of_le (Nat.le_refl i)]
  simp [h]

theorem length_take {i : Nat} (h : i ≤ n) : (buffer.toList.take i).length = i := by
  simp [h]

/-- A byte in front of position `i` is one of the first `i` bytes. -/
theorem getElem?_take {i j : Nat} (hj : j < i) (hi : j < n) :
    (buffer.toList.take i)[j]? = some buffer[j] := by
  simp [hj, hi]

end Buffer

/-- The states in which the end of an RDM frame is known. -/
def ReceiveState.IsBounded : ReceiveState → Prop
  | .checksumHigh | .checksumLow | .discoveryPreamble | .discoveryUid | .discoveryChecksum => True
  | .idle | .lineBreak | .dmxData | .rdmData => False

namespace Receiver

def dmxBytes (r : Receiver) : List UInt8 := r.dmxBuffer.toList.take r.index

def rdmBytes (r : Receiver) : List UInt8 := r.rdmBuffer.toList.take r.index

/-- The preamble of a discovery response has ended after `length` bytes: with
the delimiter, or because it was full. -/
def PreambleEnds (r : Receiver) (length : Nat) : Prop :=
  2 ≤ length ∧ length ≤ preambleMax + 1 ∧
    (r.rdmBytes[length - 1]? = some delimiterByte ∨ length = preambleMax + 1)

/-- What a receiver holds in a state. -/
def Holds (r : Receiver) : ReceiveState → Prop
  | .idle | .lineBreak => True
  | .dmxData => 1 ≤ r.index ∧ r.index ≤ maxSlots ∧ r.dmxBuffer[0] = dmxStartCode
  | .rdmData =>
    1 ≤ r.index ∧ r.index ≤ rdmCapacity ∧ r.rdmBuffer[0] = rdmStartCode ∧
      r.checksum = Dmx512.checksum r.rdmBytes ∧
      (3 ≤ r.index → 3 ≤ r.declaredLength → r.index < r.declaredLength)
  | .checksumHigh =>
    3 ≤ r.index ∧ r.index = r.declaredLength ∧ r.rdmBuffer[0] = rdmStartCode ∧
      r.checksum = Dmx512.checksum r.rdmBytes
  | .checksumLow =>
    ∃ (message : List UInt8) (high : UInt8), r.rdmBytes = message ++ [high] ∧
      3 ≤ message.length ∧ message.length = r.declaredLength ∧
      r.index = message.length + 1 ∧ r.rdmBuffer[0] = rdmStartCode ∧
      r.checksum = Dmx512.checksum message - (high.toUInt16 <<< 8)
  | .discoveryPreamble =>
    1 ≤ r.index ∧ r.index ≤ preambleMax ∧ r.rdmBuffer[0] = preambleByte ∧
      delimiterByte ∉ r.rdmBytes.tail
  | .discoveryUid =>
    r.sectionIndex < encodedUidSize ∧
      ∃ length, r.PreambleEnds length ∧ r.index = length + r.sectionIndex
  | .discoveryChecksum =>
    r.sectionIndex < encodedSumSize ∧
      ∃ length, r.PreambleEnds length ∧ r.index = length + encodedUidSize + r.sectionIndex

/-- A receiver holds what its state says, and a deadline is pending exactly
where a slot has arrived and another one is awaited. -/
structure WellFormed (r : Receiver) : Prop where
  deadline : r.deadline.isSome ↔ r.state = .dmxData ∧ 2 ≤ r.index
  content : r.Holds r.state

namespace WellFormed

variable {r : Receiver}

/-- Deadlines are those of DMX frames. -/
theorem deadline_eq_none (h : r.WellFormed) (state : r.state ≠ .dmxData) : r.deadline = none := by
  rw [← Option.not_isSome_iff_eq_none, h.deadline]
  exact fun hs => state hs.1

theorem of_holds (state : ReceiveState) (hs : r.state = state) (other : state ≠ .dmxData)
    (deadline : r.deadline = none) (content : r.Holds state) : r.WellFormed := by
  refine ⟨?_, hs ▸ content⟩
  simp [hs, other, deadline]

theorem of_idle (state : r.state = .idle) (deadline : r.deadline = none) : r.WellFormed :=
  of_holds .idle state (by decide) deadline trivial

theorem of_lineBreak (state : r.state = .lineBreak) (deadline : r.deadline = none) :
    r.WellFormed :=
  of_holds .lineBreak state (by decide) deadline trivial

/-- What the content of a state says about a receiver in that state. -/
theorem holds (h : r.WellFormed) {state : ReceiveState} (hs : r.state = state) :
    r.Holds state := hs ▸ h.content

/-- A frame whose end is known ends within the buffer. -/
theorem room (h : r.WellFormed) {state : ReceiveState} (hs : r.state = state)
    (bounded : state.IsBounded) : r.index < rdmCapacity := by
  have content := h.holds hs
  have small : r.declaredLength < 256 := r.rdmBuffer[lengthOffset].toNat_lt
  simp only [rdmCapacity]
  cases state with
  | idle | lineBreak | dmxData | rdmData => exact bounded.elim
  | checksumHigh =>
      obtain ⟨_, declared, _⟩ := content
      omega
  | checksumLow =>
      obtain ⟨_, _, _, _, declared, index, _⟩ := content
      omega
  | discoveryPreamble =>
      obtain ⟨_, short, _⟩ := content
      simp only [preambleMax] at short
      omega
  | discoveryUid | discoveryChecksum =>
      obtain ⟨short, _, ends, index⟩ := content
      have bound := ends.2.1
      simp only [encodedUidSize, encodedSumSize, preambleMax] at short bound index
      omega

end WellFormed

end Receiver

end Dmx512
