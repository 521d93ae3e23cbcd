import Dmx512.Proofs.Reception.Messages

/-!
# The invariant while discovery responses arrive

A discovery response has no declared length. Its preamble ends by content or by
its length, the sections behind it by their lengths, so the position of a
receiver is that of the end of the preamble and of the sections before plus the
bytes of the present one. It never comes near the end of the buffer.
-/

namespace Dmx512

open Standard

namespace Receiver

variable {r : Receiver}

theorem PreambleEnds.withByte {length : Nat} (h : r.PreambleEnds length) (byte : UInt8)
    (room : r.index < rdmCapacity) (arrived : length ≤ r.index) :
    (r.withByte byte room).PreambleEnds length := by
  obtain ⟨low, high, ends⟩ := h
  refine ⟨low, high, ends.imp_left fun delimiter => ?_⟩
  have bytes := length_rdmBytes (Nat.le_of_lt room)
  rw [rdmBytes_withByte, List.getElem?_append_left (by omega), delimiter]

theorem WellFormed.onIdleByte (h : r.WellFormed) (state : r.state = .idle) (byte : UInt8) :
    ∃ t, r.onIdleByte byte = .ok t ∧ t.WellFormed := by
  have deadline := h.deadline_eq_none (by rw [state]; decide)
  by_cases preamble : byte = preambleByte
  · rw [Receiver.onIdleByte, if_pos preamble, Buffer.put_of_lt _ _ (by decide)]
    refine ⟨_, rfl, .of_holds .discoveryPreamble rfl (by decide) deadline ?_⟩
    refine ⟨Nat.le_refl 1, (by decide : 1 ≤ preambleMax), by simp [preamble], ?_⟩
    have bytes := Buffer.take_set r.rdmBuffer 0 byte (by decide)
    rw [rdmBytes, bytes]
    simp
  · rw [Receiver.onIdleByte, if_neg preamble]
    exact ⟨r, rfl, h⟩

theorem onPreamble_eq (byte : UInt8) (room : r.index < rdmCapacity) :
    r.onPreamble byte =
      if byte = delimiterByte ∨ preambleMax ≤ r.index then
        { r.withByte byte room with state := .discoveryUid, sectionIndex := 0 }
      else
        r.withByte byte room := by
  have full : (r.withByte byte room).index > preambleMax ↔ preambleMax ≤ r.index :=
    Nat.lt_succ_iff
  rw [Receiver.onPreamble, append?_eq byte room]
  simp only [full]

theorem WellFormed.onPreamble (h : r.WellFormed) (state : r.state = .discoveryPreamble)
    (byte : UInt8) :
    (r.onPreamble byte).WellFormed ∧
      (r.onPreamble byte).rdmBytes = r.rdmBytes ++ [byte] ∧
      if byte = delimiterByte ∨ preambleMax ≤ r.index then
        (r.onPreamble byte).state = .discoveryUid ∧ (r.onPreamble byte).sectionIndex = 0
      else
        (r.onPreamble byte).state = .discoveryPreamble := by
  obtain ⟨low, high, code, clean⟩ := h.holds state
  have deadline := h.deadline_eq_none (by rw [state]; decide)
  have room := h.room state trivial
  have bytes := rdmBytes_withByte byte room
  have length := length_rdmBytes (Nat.le_of_lt room)
  rw [onPreamble_eq byte room]
  split
  · rename_i ends
    refine ⟨.of_holds .discoveryUid rfl (by decide) deadline ?_, bytes, rfl, rfl⟩
    refine ⟨(by decide : 0 < encodedUidSize), r.index + 1, ⟨by omega, by omega, ?_⟩, rfl⟩
    refine ends.imp (fun delimiter => ?_) fun full => by omega
    change (r.withByte byte room).rdmBytes[r.index]? = _
    rw [bytes, ← length, List.getElem?_append_right (Nat.le_refl _), delimiter]
    simp
  · rename_i goesOn
    refine ⟨.of_holds .discoveryPreamble state (by decide) deadline ?_, bytes, state⟩
    refine ⟨Nat.le_add_left 1 r.index, ?_, ?_, ?_⟩
    · change r.index + 1 ≤ preambleMax
      omega
    · exact (getElem_withByte byte room (Nat.lt_of_lt_of_le Nat.zero_lt_one low)).trans code
    · rw [bytes, List.tail_append_of_ne_nil (List.ne_nil_of_length_pos (by omega))]
      rw [List.mem_append, not_or]
      exact ⟨clean, by simpa using fun eq => goesOn (.inl eq.symm)⟩

theorem onEncodedUid_eq (byte : UInt8) (room : r.index < rdmCapacity) :
    r.onEncodedUid byte =
      if r.sectionIndex + 1 = encodedUidSize then
        { r.withByte byte room with state := .discoveryChecksum, sectionIndex := 0 }
      else
        { r.withByte byte room with sectionIndex := r.sectionIndex + 1 } := by
  rw [Receiver.onEncodedUid, append?_eq byte room]
  rfl

theorem WellFormed.onEncodedUid (h : r.WellFormed) (state : r.state = .discoveryUid)
    (byte : UInt8) :
    (r.onEncodedUid byte).WellFormed ∧
      (r.onEncodedUid byte).rdmBytes = r.rdmBytes ++ [byte] ∧
      if r.sectionIndex + 1 = encodedUidSize then
        (r.onEncodedUid byte).state = .discoveryChecksum ∧ (r.onEncodedUid byte).sectionIndex = 0
      else
        (r.onEncodedUid byte).state = .discoveryUid ∧
          (r.onEncodedUid byte).sectionIndex = r.sectionIndex + 1 := by
  obtain ⟨short, length, ends, index⟩ := h.holds state
  have deadline := h.deadline_eq_none (by rw [state]; decide)
  have room := h.room state trivial
  have bytes := rdmBytes_withByte byte room
  have kept := ends.withByte byte room (by omega)
  rw [onEncodedUid_eq byte room]
  by_cases last : r.sectionIndex + 1 = encodedUidSize
  · rw [if_pos last, if_pos last]
    refine ⟨.of_holds .discoveryChecksum rfl (by decide) deadline ?_, bytes, rfl, rfl⟩
    refine ⟨(by decide : 0 < encodedSumSize), length, kept, ?_⟩
    change r.index + 1 = length + encodedUidSize + 0
    omega
  · rw [if_neg last, if_neg last]
    refine ⟨.of_holds .discoveryUid state (by decide) deadline ?_, bytes, state, rfl⟩
    refine ⟨Nat.lt_of_le_of_ne short last, length, kept, ?_⟩
    change r.index + 1 = length + (r.sectionIndex + 1)
    omega

theorem onEncodedSum_eq (byte : UInt8) (now : Micros) (room : r.index < rdmCapacity) :
    r.onEncodedSum byte now =
      if r.sectionIndex + 1 = encodedSumSize then
        { r.withByte byte room with
          state := .idle, sectionIndex := r.sectionIndex + 1 }.publishRdm now
      else
        .ok ({ r.withByte byte room with sectionIndex := r.sectionIndex + 1 }, none) := by
  rw [Receiver.onEncodedSum, append?_eq byte room]
  rfl

theorem WellFormed.onEncodedSum (h : r.WellFormed) (state : r.state = .discoveryChecksum)
    (byte : UInt8) (now : Micros) :
    ∃ t frame, r.onEncodedSum byte now = .ok (t, frame) ∧ t.WellFormed ∧
      t.rdmBytes = r.rdmBytes ++ [byte] ∧
      if r.sectionIndex + 1 = encodedSumSize then
        t.state = .idle ∧ frame = some (.rdm { data := r.rdmBytes ++ [byte] }) ∧
          t.counters.rdmReceiveEnd = now
      else
        t.state = .discoveryChecksum ∧ frame = none ∧
          t.sectionIndex = r.sectionIndex + 1 := by
  obtain ⟨short, length, ends, index⟩ := h.holds state
  have deadline := h.deadline_eq_none (by rw [state]; decide)
  have room := h.room state trivial
  have bytes := rdmBytes_withByte byte room
  have kept := ends.withByte byte room (by omega)
  rw [onEncodedSum_eq byte now room, ← bytes]
  by_cases last : r.sectionIndex + 1 = encodedSumSize
  · simp only [if_pos last]
    exact ⟨_, _, publishRdm_eq now (Nat.succ_le_of_lt room), .of_idle rfl deadline, rfl, rfl, rfl,
      rfl⟩
  · simp only [if_neg last]
    refine ⟨_, _, rfl, .of_holds .discoveryChecksum state (by decide) deadline ?_, rfl, state,
      rfl, rfl⟩
    refine ⟨Nat.lt_of_le_of_ne short last, length, kept, ?_⟩
    change r.index + 1 = length + encodedUidSize + (r.sectionIndex + 1)
    omega

end Receiver

end Dmx512
