import Dmx512.Proofs.Reception.Invariant

/-!
# A receiver stays within its buffers

Wherever a receiver stands, its cursors lie within what they count: the one of a frame within
the longer of the two buffers, the one of a section within the longer of the two sections. A
frame that is published is no longer than the buffer it was collected in.
-/

namespace Dmx512

open Standard

/-- A frame is no longer than the buffer of its kind. -/
def Frame.Fits : Frame → Prop
  | .dmx frame => frame.length ≤ dmxCapacity
  | .rdm frame => frame.data.length ≤ rdmCapacity

namespace Buffer

/-- What is read from the front of a buffer is no longer than the buffer. -/
theorem length_front {n count : Nat} {buffer : Buffer n} {bytes : List UInt8}
    (read : buffer.front count = .ok bytes) : bytes.length ≤ n := by
  rw [front] at read
  split at read
  · rename_i short
    cases read
    rw [length_take buffer short]
    exact short
  · cases read

theorem lt_of_put {n i : Nat} {buffer written : Buffer n} {byte : UInt8}
    (wrote : buffer.put i byte = .ok written) : i < n := by
  rw [put] at wrote
  split at wrote
  · assumption
  · cases wrote

end Buffer

namespace Receiver

/-- The cursors of a receiver lie within what they count. -/
structure Fits (r : Receiver) : Prop where
  index : r.index ≤ dmxCapacity
  sectionIndex : r.sectionIndex ≤ encodedUidSize

theorem fits_powerUp : ({} : Receiver).Fits := ⟨Nat.zero_le _, Nat.zero_le _⟩

variable {r t : Receiver} {now : Micros}

/-- What ends with a receiver leaves its cursors within bounds, and a frame that fits. -/
def Yields (act : Checked (Receiver × Option Frame)) : Prop :=
  ∀ t frame, act = .ok (t, frame) → t.Fits ∧ ∀ completed, frame = some completed → completed.Fits

theorem Fits.yields (h : t.Fits) : Yields (.ok (t, none)) := by
  intro _ _ ended
  cases ended
  exact ⟨h, nofun⟩

theorem Fits.publishDmx (h : r.Fits) : Yields r.publishDmx := by
  intro t frame ended
  obtain ⟨bytes, read, done⟩ := Checked.bind_ok ended
  cases bytes with
  | nil => contradiction
  | cons startCode slots =>
      have short : (startCode :: slots).length ≤ dmxCapacity := Buffer.length_front read
      cases done
      refine ⟨⟨h.index, h.sectionIndex⟩, ?_⟩
      rintro _ ⟨⟩
      exact short

theorem Fits.publishRdm (h : r.Fits) : Yields (r.publishRdm now) := by
  intro t frame ended
  obtain ⟨data, read, done⟩ := Checked.bind_ok ended
  cases done
  refine ⟨⟨h.index, h.sectionIndex⟩, ?_⟩
  rintro _ ⟨⟩
  exact Buffer.length_front read

theorem Fits.onTimeout (h : r.Fits) : Yields (r.onTimeout now) := by
  rw [Receiver.onTimeout]
  split
  · exact h.publishDmx
  · exact h.yields

theorem Fits.onBreak (h : r.Fits) : Yields (r.onBreak now) := by
  intro t frame ended
  obtain ⟨⟨m, frame⟩, timed, done⟩ := Checked.bind_ok ended
  cases done
  obtain ⟨fits, completed⟩ := h.onTimeout m frame timed
  exact ⟨⟨fits.index, fits.sectionIndex⟩, completed⟩

section Bytes

variable (h : r.Fits) (byte : UInt8)
include h

/-- The cursors of a receiver that has begun a frame. -/
theorem Fits.begins (index : t.index = r.index ∨ t.index = 1)
    (sectionIndex : t.sectionIndex = r.sectionIndex) : t.Fits := by
  refine ⟨?_, Nat.le_trans (Nat.le_of_eq sectionIndex) h.sectionIndex⟩
  rcases index with same | one
  · exact Nat.le_trans (Nat.le_of_eq same) h.index
  · rw [one]
    decide

/-- A byte is added behind the cursor, which then lies within the shorter of the buffers. -/
theorem Fits.append? (added : r.append? byte = some t) :
    t.Fits ∧ t.sectionIndex = r.sectionIndex := by
  rw [Receiver.append?] at added
  split at added
  · rename_i room
    cases added
    exact ⟨⟨Nat.le_trans room (by decide), h.sectionIndex⟩, rfl⟩
  · contradiction

theorem Fits.onSlot : Yields (r.onSlot byte now) := by
  intro t frame ended
  obtain ⟨buffer, wrote, done⟩ := Checked.bind_ok ended
  have next : r.index + 1 ≤ dmxCapacity := Buffer.lt_of_put wrote
  dsimp only at done
  split at done
  · refine Fits.publishDmx ?_ t frame done
    exact ⟨next, h.sectionIndex⟩
  · cases done
    exact ⟨⟨next, h.sectionIndex⟩, nofun⟩

theorem Fits.onMessageByte : (r.onMessageByte byte).Fits := by
  rw [Receiver.onMessageByte]
  cases added : r.append? byte with
  | none => exact ⟨h.index, h.sectionIndex⟩
  | some m =>
      have fits := (h.append? byte added).1
      dsimp only
      split <;> exact ⟨fits.index, fits.sectionIndex⟩

theorem Fits.onChecksumHigh : (r.onChecksumHigh byte).Fits := by
  rw [Receiver.onChecksumHigh]
  cases added : r.append? byte with
  | none => exact ⟨h.index, h.sectionIndex⟩
  | some m =>
      have fits := (h.append? byte added).1
      exact ⟨fits.index, fits.sectionIndex⟩

theorem Fits.onChecksumLow : Yields (r.onChecksumLow byte now) := by
  rw [Receiver.onChecksumLow]
  cases added : r.append? byte with
  | none => exact Fits.yields ⟨h.index, h.sectionIndex⟩
  | some m =>
      have fits := (h.append? byte added).1
      dsimp only
      split
      · exact Fits.publishRdm ⟨fits.index, fits.sectionIndex⟩
      · exact Fits.yields ⟨fits.index, fits.sectionIndex⟩

theorem Fits.onIdleByte (ended : r.onIdleByte byte = .ok t) : t.Fits := by
  rw [Receiver.onIdleByte] at ended
  split at ended
  · obtain ⟨buffer, _, done⟩ := Checked.bind_ok ended
    cases done
    exact h.begins (.inr rfl) rfl
  · cases ended
    exact h

theorem Fits.onPreamble : (r.onPreamble byte).Fits := by
  rw [Receiver.onPreamble]
  cases added : r.append? byte with
  | none => exact ⟨h.index, h.sectionIndex⟩
  | some m =>
      have fits := (h.append? byte added).1
      dsimp only
      split
      · exact ⟨fits.index, Nat.zero_le _⟩
      · exact fits

theorem Fits.onEncodedUid (within : r.sectionIndex < encodedUidSize) :
    (r.onEncodedUid byte).Fits := by
  rw [Receiver.onEncodedUid]
  cases added : r.append? byte with
  | none => exact ⟨h.index, h.sectionIndex⟩
  | some m =>
      obtain ⟨fits, same⟩ := h.append? byte added
      dsimp only
      split
      · exact ⟨fits.index, Nat.zero_le _⟩
      · exact ⟨fits.index, same ▸ within⟩

theorem Fits.onEncodedSum (within : r.sectionIndex < encodedSumSize) :
    Yields (r.onEncodedSum byte now) := by
  rw [Receiver.onEncodedSum]
  cases added : r.append? byte with
  | none => exact Fits.yields ⟨h.index, h.sectionIndex⟩
  | some m =>
      obtain ⟨fits, same⟩ := h.append? byte added
      have next : m.sectionIndex + 1 ≤ encodedUidSize :=
        Nat.le_trans (same ▸ within) (by decide)
      dsimp only
      split
      · exact Fits.publishRdm ⟨fits.index, next⟩
      · exact Fits.yields ⟨fits.index, next⟩

theorem Fits.onStartCode (ended : r.onStartCode byte now = .ok t) : t.Fits := by
  rw [Receiver.onStartCode] at ended
  split at ended
  · obtain ⟨buffer, _, done⟩ := Checked.bind_ok ended
    cases done
    exact h.begins (.inr rfl) rfl
  split at ended
  · obtain ⟨buffer, _, done⟩ := Checked.bind_ok ended
    cases done
    exact h.begins (.inr rfl) rfl
  · cases ended
    exact h.begins (.inl rfl) rfl

/-- The sections of a discovery response end where the invariant says so. -/
theorem Fits.onByte (wf : r.WellFormed) : Yields (r.onByte byte now) := by
  rw [Receiver.onByte]
  cases state : r.state with
  | idle =>
      intro t frame ended
      obtain ⟨m, idle, done⟩ := Checked.bind_ok ended
      cases done
      exact ⟨h.onIdleByte byte idle, nofun⟩
  | lineBreak =>
      intro t frame ended
      obtain ⟨m, started, done⟩ := Checked.bind_ok ended
      cases done
      exact ⟨h.onStartCode byte started, nofun⟩
  | dmxData => exact h.onSlot byte
  | rdmData => exact (h.onMessageByte byte).yields
  | checksumHigh => exact (h.onChecksumHigh byte).yields
  | checksumLow => exact h.onChecksumLow byte
  | discoveryPreamble => exact (h.onPreamble byte).yields
  | discoveryUid => exact (h.onEncodedUid byte (wf.holds state).1).yields
  | discoveryChecksum => exact h.onEncodedSum byte (wf.holds state).1

/-- Whatever a receiver hears, it stays within its buffers. -/
theorem Fits.hear (wf : r.WellFormed) (signal : Signal) : Yields (r.hear signal now) := by
  cases signal with
  | lineBreak => exact h.onBreak
  | byte value => exact h.onByte value wf
  | damaged => exact Fits.yields ⟨h.index, h.sectionIndex⟩

end Bytes

end Receiver

end Dmx512
