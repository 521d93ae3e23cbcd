import Dmx512.Proofs.Reception.Invariant

/-!
# The invariant while DMX slots arrive

A slot extends the frame and moves its deadline; the last slot, a timeout that
finds the deadline due and a break that does so end the frame. What they publish
is `Receiver.dmxFrame`: the slots that have arrived, whatever the rest of the
buffer holds.
-/

namespace Dmx512

open Standard

namespace Receiver

variable {r : Receiver}

/-- The frame that the slots received so far make. -/
def dmxFrame (r : Receiver) : DmxFrame where
  startCode := dmxStartCode
  slots := r.dmxBytes.tail
  slotToSlot := r.slotSpacing
  breakToBreak := r.breakToBreak

theorem data_dmxFrame (h : 1 ≤ r.index) (code : r.dmxBuffer[0] = dmxStartCode) :
    r.dmxFrame.data = r.dmxBytes := by
  have first : r.dmxBytes[0]? = some dmxStartCode := by
    rw [dmxBytes, Buffer.getElem?_take _ h (by decide), code]
  cases hb : r.dmxBytes with
  | nil => simp [hb] at first
  | cons byte rest =>
      have hbyte : byte = dmxStartCode := by simpa [hb] using first
      simp [DmxFrame.data, dmxFrame, hb, hbyte]

/-- What ends a DMX frame leaves a receiver between frames. -/
theorem publishDmx_eq (low : 1 ≤ r.index) (high : r.index ≤ dmxCapacity)
    (code : r.dmxBuffer[0] = dmxStartCode) :
    r.publishDmx = .ok ({ r with
      state := .idle
      deadline := none
      counters := { r.counters with slotsInPacket := UInt16.ofNat r.dmxFrame.slots.length } },
      some (.dmx r.dmxFrame)) := by
  have data : dmxStartCode :: r.dmxFrame.slots = r.dmxBytes := data_dmxFrame low code
  have front : r.dmxBuffer.front r.index = .ok (dmxStartCode :: r.dmxFrame.slots) := by
    rw [Buffer.front_of_le _ high, data, dmxBytes]
  rw [publishDmx, front]
  rfl

/-- A timeout that finds no slots awaited is stale. -/
theorem onTimeout_stale (state : r.state ≠ .dmxData) (now : Micros) :
    r.onTimeout now = .ok (r, none) := by
  have early : r.overdue now = false := by
    rw [overdue]
    split
    · contradiction
    · rfl
  rw [Receiver.onTimeout, early]
  rfl

theorem WellFormed.onTimeout (h : r.WellFormed) (now : Micros) :
    ∃ t frame, r.onTimeout now = .ok (t, frame) ∧ t.WellFormed := by
  by_cases due : r.overdue now = true
  · have state : r.state = .dmxData := by
      rw [overdue] at due
      split at due
      · assumption
      · contradiction
    obtain ⟨low, high, code⟩ := h.holds state
    rw [Receiver.onTimeout, if_pos due, publishDmx_eq low (Nat.le_succ_of_le high) code]
    exact ⟨_, _, rfl, .of_idle rfl rfl⟩
  · rw [Receiver.onTimeout, if_neg due]
    exact ⟨r, none, rfl, h⟩

/-- Whatever it ended, a break is followed by a start code. -/
theorem onBreak_ok {t : Receiver} {frame : Option Frame} {now : Micros}
    (ended : r.onBreak now = .ok (t, frame)) :
    t.state = .lineBreak ∧ t.deadline = none ∧ t.breakTime = now := by
  rw [Receiver.onBreak] at ended
  obtain ⟨_, _, left⟩ := Checked.bind_ok ended
  cases left
  exact ⟨rfl, rfl, rfl⟩

theorem WellFormed.onBreak (h : r.WellFormed) (now : Micros) :
    ∃ t frame, r.onBreak now = .ok (t, frame) ∧ t.WellFormed := by
  obtain ⟨t, frame, ended, _⟩ := h.onTimeout now
  rw [Receiver.onBreak, ended]
  exact ⟨_, _, rfl, .of_lineBreak rfl rfl⟩

def withSlot (r : Receiver) (byte : UInt8) (now : Micros) (room : r.index < dmxCapacity) :
    Receiver :=
  { r with
    dmxBuffer := r.dmxBuffer.set r.index byte room
    index := r.index + 1
    slotTime := now
    slotSpacing := max (elapsed now r.slotTime) spacingFloor
    counters := { r.counters with slotToSlot := max (elapsed now r.slotTime) spacingFloor } }

theorem dmxBytes_withSlot (byte : UInt8) (now : Micros) (room : r.index < dmxCapacity) :
    (r.withSlot byte now room).dmxBytes = r.dmxBytes ++ [byte] :=
  Buffer.take_set r.dmxBuffer r.index byte room

theorem withSlot_startCode (byte : UInt8) (now : Micros) (room : r.index < dmxCapacity)
    (low : 1 ≤ r.index) (code : r.dmxBuffer[0] = dmxStartCode) :
    (r.withSlot byte now room).dmxBuffer[0] = dmxStartCode := by
  change (r.dmxBuffer.set r.index byte room)[0] = dmxStartCode
  rw [Vector.getElem_set_ne _ _ (by omega), code]

theorem onSlot_eq (byte : UInt8) (now : Micros) (room : r.index < dmxCapacity) :
    r.onSlot byte now =
      if r.index + 1 = dmxCapacity then
        (r.withSlot byte now room).publishDmx
      else
        .ok ({ r.withSlot byte now room with
          deadline := some (now + max (elapsed now r.slotTime) spacingFloor + timeoutGuard) },
          none) := by
  rw [Receiver.onSlot, Buffer.put_of_lt _ _ room]
  rfl

/-- The last slot ends its frame. -/
theorem onSlot_last (byte : UInt8) (now : Micros) (last : r.index = maxSlots)
    (code : r.dmxBuffer[0] = dmxStartCode) :
    ∃ t frame, r.onSlot byte now = .ok (t, some (.dmx frame)) ∧ t.state = .idle ∧
      t.deadline = none ∧ frame.data = r.dmxBytes ++ [byte] ∧
      frame.slotToSlot = max (elapsed now r.slotTime) spacingFloor := by
  have room : r.index < dmxCapacity := by simp [last]
  have low : 1 ≤ r.index := by
    rw [last]
    decide
  have first := withSlot_startCode byte now room low code
  rw [onSlot_eq byte now room, if_pos (by rw [last]),
    publishDmx_eq (Nat.le_add_left 1 r.index) (Nat.succ_le_of_lt room) first]
  refine ⟨_, _, rfl, rfl, rfl, ?_, rfl⟩
  rw [data_dmxFrame (Nat.le_add_left 1 r.index) first, dmxBytes_withSlot]

theorem WellFormed.onSlot (h : r.WellFormed) (state : r.state = .dmxData) (byte : UInt8)
    (now : Micros) : ∃ t frame, r.onSlot byte now = .ok (t, frame) ∧ t.WellFormed := by
  obtain ⟨low, high, code⟩ := h.holds state
  have room : r.index < dmxCapacity := Nat.lt_succ_of_le high
  rcases Nat.lt_or_eq_of_le high with more | last
  · have first := withSlot_startCode byte now room low code
    rw [onSlot_eq byte now room, if_neg (by simp only [dmxCapacity, maxSlots] at more ⊢; omega)]
    refine ⟨_, _, rfl, ?_, ?_⟩
    · simpa [withSlot, state] using low
    · change Holds _ r.state
      rw [state]
      exact ⟨Nat.le_add_left 1 r.index, more, first⟩
  · obtain ⟨t, frame, ended, idle, none, _⟩ := onSlot_last byte now last code
    exact ⟨t, _, ended, .of_idle idle none⟩

end Receiver

end Dmx512
