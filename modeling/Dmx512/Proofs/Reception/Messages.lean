import Dmx512.Proofs.Rdm.Message
import Dmx512.Proofs.Reception.Invariant

/-!
# The invariant while RDM frames arrive

Every byte of an RDM frame joins the bytes before it or, where the buffer is
full, ends the frame. A message is published by the second of its checksum
bytes, exactly if they spell the sum of its bytes and the byte behind its start
code is right.
-/

namespace Dmx512

open Standard

namespace Receiver

variable {r : Receiver}

def withByte (r : Receiver) (byte : UInt8) (room : r.index < rdmCapacity) : Receiver :=
  { r with rdmBuffer := r.rdmBuffer.set r.index byte room, index := r.index + 1 }

theorem append?_eq (byte : UInt8) (room : r.index < rdmCapacity) :
    r.append? byte = some (r.withByte byte room) := by
  rw [append?, dif_pos room]
  rfl

theorem append?_full (byte : UInt8) (full : rdmCapacity ≤ r.index) : r.append? byte = none := by
  rw [append?, dif_neg (Nat.not_lt_of_le full)]

theorem rdmBytes_withByte (byte : UInt8) (room : r.index < rdmCapacity) :
    (r.withByte byte room).rdmBytes = r.rdmBytes ++ [byte] :=
  Buffer.take_set r.rdmBuffer r.index byte room

/-- Bytes that have arrived stay where they are. -/
theorem getElem_withByte (byte : UInt8) (room : r.index < rdmCapacity) {i : Nat}
    {bound : i < rdmCapacity} (arrived : i < r.index) :
    (r.withByte byte room).rdmBuffer[i] = r.rdmBuffer[i] := by
  change (r.rdmBuffer.set r.index byte room)[i] = _
  rw [Vector.getElem_set_ne _ _ (by omega)]

theorem declaredLength_withByte (byte : UInt8) (room : r.index < rdmCapacity)
    (arrived : lengthOffset < r.index) :
    (r.withByte byte room).declaredLength = r.declaredLength :=
  congrArg UInt8.toNat (getElem_withByte byte room arrived)

theorem length_rdmBytes (h : r.index ≤ rdmCapacity) : r.rdmBytes.length = r.index :=
  Buffer.length_take r.rdmBuffer h

theorem publishRdm_eq (now : Micros) (h : r.index ≤ rdmCapacity) :
    r.publishRdm now = .ok ({ r with
      counters := { r.counters with rdmReceiveEnd := now } },
      some (.rdm { data := r.rdmBytes })) := by
  rw [publishRdm, Buffer.front_of_le _ h]
  rfl

theorem onMessageByte_eq (byte : UInt8) (room : r.index < rdmCapacity) :
    r.onMessageByte byte =
      if r.index + 1 > lengthOffset ∧ r.index + 1 = (r.withByte byte room).declaredLength then
        { r.withByte byte room with
          checksum := r.checksum + byte.toUInt16, state := .checksumHigh }
      else
        { r.withByte byte room with checksum := r.checksum + byte.toUInt16 } := by
  rw [Receiver.onMessageByte, append?_eq byte room]
  rfl

theorem onMessageByte_full (byte : UInt8) (full : rdmCapacity ≤ r.index) :
    r.onMessageByte byte = { r with state := .idle } := by
  rw [Receiver.onMessageByte, append?_full byte full]

theorem onChecksumHigh_eq (byte : UInt8) (room : r.index < rdmCapacity) :
    r.onChecksumHigh byte = { r.withByte byte room with
      checksum := r.checksum - (byte.toUInt16 <<< 8), state := .checksumLow } := by
  rw [Receiver.onChecksumHigh, append?_eq byte room]
  rfl

theorem onChecksumLow_eq (byte : UInt8) (now : Micros) (room : r.index < rdmCapacity) :
    r.onChecksumLow byte now =
      if r.checksum - byte.toUInt16 = 0 ∧
          (r.withByte byte room).rdmBuffer[1] = rdmSubStartCode then
        { r.withByte byte room with
          checksum := r.checksum - byte.toUInt16, state := .idle }.publishRdm now
      else
        .ok ({ r.withByte byte room with
          checksum := r.checksum - byte.toUInt16, state := .idle }, none) := by
  rw [Receiver.onChecksumLow, append?_eq byte room]
  rfl

/-- A byte of a message joins it, or finds the buffer full and ends it. -/
theorem WellFormed.onMessageByte (h : r.WellFormed) (state : r.state = .rdmData) (byte : UInt8) :
    (r.onMessageByte byte).WellFormed ∧
      if r.index = rdmCapacity then
        (r.onMessageByte byte).state = .idle
      else
        (r.onMessageByte byte).rdmBytes = r.rdmBytes ++ [byte] ∧
          ((r.onMessageByte byte).state = .rdmData ∨
            (r.onMessageByte byte).state = .checksumHigh) := by
  obtain ⟨low, high, code, sum, short⟩ := h.holds state
  have deadline := h.deadline_eq_none (by rw [state]; decide)
  split
  · rename_i full
    rw [onMessageByte_full byte (Nat.le_of_eq full.symm)]
    exact ⟨.of_idle rfl deadline, rfl⟩
  · rename_i more
    have room : r.index < rdmCapacity := Nat.lt_of_le_of_ne high more
    have bytes := rdmBytes_withByte byte room
    have first : (r.withByte byte room).rdmBuffer[0] = r.rdmBuffer[0] :=
      getElem_withByte byte room (Nat.lt_of_lt_of_le Nat.zero_lt_one low)
    have total : r.checksum + byte.toUInt16 = Dmx512.checksum (r.withByte byte room).rdmBytes := by
      rw [bytes, checksum_append, checksum_singleton, sum]
    rw [onMessageByte_eq byte room]
    split
    · rename_i complete
      refine ⟨.of_holds .checksumHigh rfl (by decide) deadline ?_, bytes, .inr rfl⟩
      exact ⟨Nat.succ_le_of_lt complete.1, complete.2, first.trans code, total⟩
    · rename_i incomplete
      refine ⟨.of_holds .rdmData state (by decide) deadline ?_, bytes, .inl state⟩
      refine ⟨Nat.le_add_left 1 r.index, room, first.trans code, total, ?_⟩
      change 3 ≤ r.index + 1 → 3 ≤ (r.withByte byte room).declaredLength →
        r.index + 1 < (r.withByte byte room).declaredLength
      intro three declared
      have ne : r.index + 1 ≠ (r.withByte byte room).declaredLength :=
        fun eq => incomplete ⟨three, eq⟩
      -- The length is declared by the third byte, which may be the one that has just come.
      rcases Nat.lt_or_eq_of_le three with later | third
      · have kept := declaredLength_withByte byte room (show 2 < r.index by omega)
        rw [kept] at declared ne ⊢
        have := short (by omega) declared
        omega
      · omega

/-- The high byte of a checksum always finds room. -/
theorem WellFormed.onChecksumHigh (h : r.WellFormed) (state : r.state = .checksumHigh)
    (byte : UInt8) :
    (r.onChecksumHigh byte).WellFormed ∧ (r.onChecksumHigh byte).state = .checksumLow ∧
      (r.onChecksumHigh byte).rdmBytes = r.rdmBytes ++ [byte] := by
  obtain ⟨three, declared, code, sum⟩ := h.holds state
  have deadline := h.deadline_eq_none (by rw [state]; decide)
  have room := h.room state trivial
  have bytes := rdmBytes_withByte byte room
  have length := length_rdmBytes (Nat.le_of_lt room)
  rw [onChecksumHigh_eq byte room]
  refine ⟨.of_holds .checksumLow rfl (by decide) deadline ?_, rfl, bytes⟩
  refine ⟨r.rdmBytes, byte, bytes, by omega, ?_, by rw [length]; rfl, ?_, ?_⟩
  · rw [length, declared]
    exact (declaredLength_withByte byte room three).symm
  · exact (getElem_withByte byte room (by omega)).trans code
  · exact congrArg (· - (byte.toUInt16 <<< 8)) sum

/-- What publishes a message with the checksum bytes `high` and `low`. -/
def Accepts (message : List UInt8) (high low : UInt8) : Prop :=
  Dmx512.checksum message = bigEndian high low ∧ message[1]? = some rdmSubStartCode

instance (message : List UInt8) (high low : UInt8) : Decidable (Accepts message high low) :=
  inferInstanceAs (Decidable (_ ∧ _))

theorem shiftLeft_eight (byte : UInt8) : byte.toUInt16 <<< 8 = byte.toUInt16 * 256 := by
  apply UInt16.toNat_inj.mp
  have := byte.toNat_lt
  simp [UInt16.toNat_shiftLeft, Nat.shiftLeft_eq]

/-- A sum is used up by the checksum bytes that spell it. -/
theorem sub_bigEndian (sum : UInt16) (high low : UInt8) :
    sum - (high.toUInt16 <<< 8) - low.toUInt16 = 0 ↔ sum = bigEndian high low := by
  rw [shiftLeft_eight, bigEndian]
  grind

/-- The low byte of a checksum always finds room, and ends the message. -/
theorem WellFormed.onChecksumLow (h : r.WellFormed) (state : r.state = .checksumLow)
    (byte : UInt8) (now : Micros) :
    ∃ message high t frame, r.rdmBytes = message ++ [high] ∧ 3 ≤ message.length ∧
      message[lengthOffset]?.map UInt8.toNat = some message.length ∧
      r.onChecksumLow byte now = .ok (t, frame) ∧ t.WellFormed ∧ t.state = .idle ∧
      frame = (if Accepts message high byte then some (.rdm { data := r.rdmBytes ++ [byte] })
        else none) ∧
      (frame.isSome → t.counters.rdmReceiveEnd = now) := by
  obtain ⟨message, high, bytes, three, declared, index, code, sum⟩ := h.holds state
  have deadline := h.deadline_eq_none (by rw [state]; decide)
  have room := h.room state trivial
  have lookup {i : Nat} (hi : i < message.length) (hc : i < rdmCapacity) :
      message[i]? = some r.rdmBuffer[i] := by
    have kept : (message ++ [high])[i]? = message[i]? := List.getElem?_append_left hi
    rw [← kept, ← bytes, rdmBytes, Buffer.getElem?_take _ (by omega)]
  have kept : (r.withByte byte room).rdmBuffer[1] = r.rdmBuffer[1] :=
    getElem_withByte byte room (by omega)
  have accepted : (r.checksum - byte.toUInt16 = 0 ∧
      (r.withByte byte room).rdmBuffer[1] = rdmSubStartCode) ↔ Accepts message high byte := by
    rw [Accepts, sum, sub_bigEndian, kept, lookup (by omega) (by decide), Option.some_inj]
  refine ⟨message, high, ?_⟩
  have ends : ∃ t frame, r.onChecksumLow byte now = .ok (t, frame) ∧ t.state = .idle ∧
      t.deadline = r.deadline ∧
      frame = (if Accepts message high byte then some (.rdm { data := r.rdmBytes ++ [byte] })
        else none) ∧
      (frame.isSome → t.counters.rdmReceiveEnd = now) := by
    rw [onChecksumLow_eq byte now room, ← rdmBytes_withByte byte room]
    split
    · rename_i accept
      rw [if_pos (accepted.mp accept)]
      exact ⟨_, _, publishRdm_eq now (Nat.succ_le_of_lt room), rfl, rfl, rfl, fun _ => rfl⟩
    · rename_i reject
      rw [if_neg (fun accept => reject (accepted.mpr accept))]
      exact ⟨_, _, rfl, rfl, rfl, rfl, by simp⟩
  obtain ⟨t, frame, ended, idle, kept, published, receiveEnd⟩ := ends
  refine ⟨t, frame, bytes, three, ?_, ended, .of_idle idle (kept.trans deadline), idle,
    published, receiveEnd⟩
  rw [lookup three (by decide), Option.map_some, Option.some_inj]
  exact declared.symm

end Receiver

end Dmx512
