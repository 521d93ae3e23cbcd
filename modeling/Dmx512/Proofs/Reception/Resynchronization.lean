import Dmx512.Proofs.Reception.Progress

/-!
# What a break makes a receiver forget

A break leaves position, sums, spacings and both buffers as they are. `Alike`
relates two receivers that agree on what is still to be read of these, which
depends on what is expected next, and on nothing else. Two receivers are alike
behind a break, however different they were, and alike receivers respond alike
to every cause.

Only the latest DMX break is remembered across a break, until the next start
code: `codes` counts the start codes since the common break, and the first one
may still measure an interval that began before it.
-/

namespace Dmx512

open Standard

/-- A frame apart from the interval between its break and the one before. -/
def Frame.withoutInterval : Frame → Frame
  | .dmx frame => .dmx { frame with breakToBreak := 0 }
  | .rdm frame => .rdm frame

/-- What a receiver responded to, and when. -/
def Occasion.stimulus (o : Occasion) : Cause × Micros := (o.cause, o.time)

/-- Whether a start code is awaited after a cause, if it was `awaited` before. -/
def Cause.awaits (awaited : Bool) : Cause → Bool
  | .signal .lineBreak => true
  | .signal (.byte _) | .signal .damaged => false
  | .timeout => awaited

/-- How many start codes a cause brings: a byte without error is one where one
is awaited. -/
def Cause.codes (awaited : Bool) : Cause → Nat
  | .signal (.byte _) => if awaited then 1 else 0
  | .signal .lineBreak | .signal .damaged | .timeout => 0

/-- The start codes in a story: the bytes without error that follow a break.
`awaited` says whether the first one may. -/
def startCodes (awaited : Bool) : List Occasion → Nat
  | [] => 0
  | o :: rest => o.cause.codes awaited + startCodes (o.cause.awaits awaited) rest

namespace Receiver

/-- Two receivers agree on what a state has still to be read. -/
def Shares (codes : Nat) (r₁ r₂ : Receiver) : ReceiveState → Prop
  | .idle | .lineBreak => True
  | .dmxData =>
    r₁.index = r₂.index ∧ r₁.dmxBytes = r₂.dmxBytes ∧ r₁.slotTime = r₂.slotTime ∧
      (r₁.deadline.isSome → r₁.slotSpacing = r₂.slotSpacing) ∧
      (2 ≤ codes → r₁.breakToBreak = r₂.breakToBreak)
  | .rdmData | .checksumHigh | .checksumLow =>
    r₁.index = r₂.index ∧ r₁.rdmBytes = r₂.rdmBytes ∧ r₁.checksum = r₂.checksum
  | .discoveryPreamble => r₁.index = r₂.index ∧ r₁.rdmBytes = r₂.rdmBytes
  | .discoveryUid | .discoveryChecksum =>
    r₁.index = r₂.index ∧ r₁.rdmBytes = r₂.rdmBytes ∧ r₁.sectionIndex = r₂.sectionIndex

/-- Two well-formed receivers agree on everything that is still to be read,
`codes` start codes behind a common break. -/
structure Alike (codes : Nat) (r₁ r₂ : Receiver) : Prop where
  wellFormed₁ : r₁.WellFormed
  wellFormed₂ : r₂.WellFormed
  state : r₂.state = r₁.state
  deadline : r₁.deadline = r₂.deadline
  breakTime : r₁.breakTime = r₂.breakTime
  lastDmxBreak : 1 ≤ codes → r₁.lastDmxBreak = r₂.lastDmxBreak
  content : r₁.Shares codes r₂ r₁.state

/-- The outcomes of two receivers: what they publish agrees apart from the
intervals of frames of the first start code, and they stay alike. -/
def Agree (codes : Nat) (first second : Checked (Receiver × Option Frame)) : Prop :=
  ∃ t₁ frame₁ t₂ frame₂, first = .ok (t₁, frame₁) ∧ second = .ok (t₂, frame₂) ∧
    t₁.Alike codes t₂ ∧ frame₁.map Frame.withoutInterval = frame₂.map Frame.withoutInterval ∧
    (2 ≤ codes → frame₁ = frame₂)

section

variable {codes : Nat} {r₁ r₂ : Receiver}

theorem Alike.shares (h : r₁.Alike codes r₂) {state : ReceiveState} (hs : r₁.state = state) :
    r₁.Shares codes r₂ state := hs ▸ h.content

theorem rdmBytes_congr_withByte (bytes : r₁.rdmBytes = r₂.rdmBytes) (byte : UInt8)
    (room₁ : r₁.index < rdmCapacity) (room₂ : r₂.index < rdmCapacity) :
    (r₁.withByte byte room₁).rdmBytes = (r₂.withByte byte room₂).rdmBytes := by
  rw [rdmBytes_withByte, rdmBytes_withByte, bytes]

/-- Receivers with the same bytes hold the same byte at a position that has been
written. -/
theorem getElem_congr {i : Nat} (index : r₁.index = r₂.index) (bytes : r₁.rdmBytes = r₂.rdmBytes)
    (arrived : i < r₁.index) (bound : i < rdmCapacity) :
    r₁.rdmBuffer[i] = r₂.rdmBuffer[i] := by
  have left := Buffer.getElem?_take r₁.rdmBuffer arrived bound
  have right := Buffer.getElem?_take r₂.rdmBuffer (index ▸ arrived) bound
  change r₁.rdmBytes[i]? = _ at left
  change r₂.rdmBytes[i]? = _ at right
  rw [bytes, right] at left
  exact (Option.some_inj.mp left).symm

/-- Where nothing is published, only the receivers are compared. -/
theorem Alike.silent (h : r₁.Alike codes r₂) : Agree codes (.ok (r₁, none)) (.ok (r₂, none)) :=
  ⟨_, _, _, _, rfl, rfl, h, rfl, fun _ => rfl⟩

/-- Receivers that end a frame with the same bytes publish the same slots. -/
theorem publishDmx_agree (code₁ : r₁.dmxBuffer[0] = dmxStartCode)
    (code₂ : r₂.dmxBuffer[0] = dmxStartCode) (low : 1 ≤ r₁.index) (high : r₁.index ≤ dmxCapacity)
    (index : r₁.index = r₂.index) (bytes : r₁.dmxBytes = r₂.dmxBytes)
    (spacing : r₁.slotSpacing = r₂.slotSpacing)
    (interval : 2 ≤ codes → r₁.breakToBreak = r₂.breakToBreak)
    (breakTime : r₁.breakTime = r₂.breakTime)
    (lastDmxBreak : 1 ≤ codes → r₁.lastDmxBreak = r₂.lastDmxBreak) :
    Agree codes r₁.publishDmx r₂.publishDmx := by
  rw [publishDmx_eq low high code₁, publishDmx_eq (index ▸ low) (index ▸ high) code₂]
  refine ⟨_, _, _, _, rfl, rfl, ?_, ?_, ?_⟩
  · exact ⟨.of_idle rfl rfl, .of_idle rfl rfl, rfl, rfl, breakTime, lastDmxBreak, trivial⟩
  · simp [Frame.withoutInterval, dmxFrame, bytes, spacing]
  · intro known
    simp [dmxFrame, bytes, spacing, interval known]

theorem Alike.overdue_eq (h : r₁.Alike codes r₂) (now : Micros) :
    r₁.overdue now = r₂.overdue now := by
  rw [overdue, overdue, h.state, h.deadline]

theorem Alike.onTimeout (h : r₁.Alike codes r₂) (now : Micros) :
    Agree codes (r₁.onTimeout now) (r₂.onTimeout now) := by
  by_cases due : r₁.overdue now = true
  · have pending : r₁.state = .dmxData ∧ r₁.deadline.isSome := by
      rw [overdue] at due
      split at due
      · rename_i state deadline
        exact ⟨state, by rw [deadline]; rfl⟩
      · contradiction
    obtain ⟨state, deadline⟩ := pending
    obtain ⟨index, bytes, _, spacing, interval⟩ := h.shares state
    obtain ⟨low, high, code₁⟩ := h.wellFormed₁.holds state
    obtain ⟨_, _, code₂⟩ := h.wellFormed₂.holds (h.state.trans state)
    rw [Receiver.onTimeout, Receiver.onTimeout, ← h.overdue_eq, if_pos due, if_pos due]
    exact publishDmx_agree code₁ code₂ low (Nat.le_succ_of_le high) index bytes
      (spacing deadline) interval h.breakTime h.lastDmxBreak
  · rw [Receiver.onTimeout, Receiver.onTimeout, ← h.overdue_eq, if_neg due, if_neg due]
    exact h.silent

theorem Alike.onBreak (h : r₁.Alike codes r₂) (now : Micros) :
    Agree codes (r₁.onBreak now) (r₂.onBreak now) := by
  obtain ⟨t₁, frame₁, t₂, frame₂, ended₁, ended₂, alike, same, equal⟩ := h.onTimeout now
  rw [Receiver.onBreak, Receiver.onBreak, ended₁, ended₂]
  exact ⟨_, _, _, _, rfl, rfl, ⟨.of_lineBreak rfl rfl, .of_lineBreak rfl rfl, rfl, rfl, rfl,
    alike.lastDmxBreak, trivial⟩, same, equal⟩

/-- Whatever came before it, a break makes receivers alike. -/
theorem alike_onBreak {t₁ t₂ : Receiver} {frame₁ frame₂ : Option Frame} {now : Micros}
    (ended₁ : r₁.onBreak now = .ok (t₁, frame₁)) (ended₂ : r₂.onBreak now = .ok (t₂, frame₂)) :
    t₁.Alike 0 t₂ := by
  obtain ⟨state₁, deadline₁, breakTime₁⟩ := onBreak_ok ended₁
  obtain ⟨state₂, deadline₂, breakTime₂⟩ := onBreak_ok ended₂
  refine ⟨.of_lineBreak state₁ deadline₁, .of_lineBreak state₂ deadline₂, state₂.trans state₁.symm,
    deadline₁.trans deadline₂.symm, breakTime₁.trans breakTime₂.symm, by omega, ?_⟩
  rw [state₁]
  trivial

theorem Alike.onIdleByte (h : r₁.Alike codes r₂) (state : r₁.state = .idle) (byte : UInt8) :
    Agree codes (r₁.onIdleByte byte >>= fun t => pure (t, none))
      (r₂.onIdleByte byte >>= fun t => pure (t, none)) := by
  obtain ⟨t₁, ended₁, wf₁⟩ := h.wellFormed₁.onIdleByte state byte
  obtain ⟨t₂, ended₂, wf₂⟩ := h.wellFormed₂.onIdleByte (h.state.trans state) byte
  rw [ended₁, ended₂]
  apply Alike.silent
  by_cases preamble : byte = preambleByte
  · rw [Receiver.onIdleByte, if_pos preamble, Buffer.put_of_lt _ _ (by decide)] at ended₁ ended₂
    cases ended₁
    cases ended₂
    refine ⟨wf₁, wf₂, rfl, h.deadline, h.breakTime, h.lastDmxBreak, rfl, ?_⟩
    rw [rdmBytes_startCode byte rfl rfl, rdmBytes_startCode byte rfl rfl]
  · rw [Receiver.onIdleByte, if_neg preamble] at ended₁ ended₂
    cases ended₁
    cases ended₂
    exact h

theorem Alike.onStartCode (h : r₁.Alike codes r₂) (state : r₁.state = .lineBreak) (code : UInt8)
    (now : Micros) :
    Agree (1 + codes) (r₁.onStartCode code now >>= fun t => pure (t, none))
      (r₂.onStartCode code now >>= fun t => pure (t, none)) := by
  obtain ⟨t₁, ended₁, wf₁⟩ := h.wellFormed₁.onStartCode state code now
  obtain ⟨t₂, ended₂, wf₂⟩ := h.wellFormed₂.onStartCode (h.state.trans state) code now
  rw [ended₁, ended₂]
  apply Alike.silent
  by_cases dmx : code = dmxStartCode
  · subst dmx
    obtain ⟨_, started₁⟩ := r₁.onStartCode_dmx now
    obtain ⟨_, started₂⟩ := r₂.onStartCode_dmx now
    rw [ended₁] at started₁
    rw [ended₂] at started₂
    cases started₁
    cases started₂
    refine ⟨wf₁, wf₂, rfl, h.deadline, h.breakTime, fun _ => congrArg some h.breakTime, rfl, ?_,
      rfl, ?_, ?_⟩
    · rw [dmxBytes_startCode dmxStartCode rfl rfl, dmxBytes_startCode dmxStartCode rfl rfl]
    · intro pending
      have none := h.wellFormed₁.deadline_eq_none (by rw [state]; decide)
      rw [none] at pending
      contradiction
    · intro second
      dsimp only
      rw [h.lastDmxBreak (by omega), h.breakTime]
  · by_cases rdm : code = rdmStartCode
    · subst rdm
      obtain ⟨_, started₁⟩ := r₁.onStartCode_rdm now
      obtain ⟨_, started₂⟩ := r₂.onStartCode_rdm now
      rw [ended₁] at started₁
      rw [ended₂] at started₂
      cases started₁
      cases started₂
      refine ⟨wf₁, wf₂, rfl, h.deadline, h.breakTime, fun _ => rfl, rfl, ?_, rfl⟩
      rw [rdmBytes_startCode rdmStartCode rfl rfl, rdmBytes_startCode rdmStartCode rfl rfl]
    · rw [onStartCode_other now dmx rdm] at ended₁ ended₂
      cases ended₁
      cases ended₂
      exact ⟨wf₁, wf₂, rfl, h.deadline, h.breakTime, fun _ => rfl, trivial⟩

theorem Alike.onSlot (h : r₁.Alike codes r₂) (state : r₁.state = .dmxData) (byte : UInt8)
    (now : Micros) : Agree codes (r₁.onSlot byte now) (r₂.onSlot byte now) := by
  obtain ⟨index, bytes, slotTime, _, interval⟩ := h.shares state
  obtain ⟨low, high, code₁⟩ := h.wellFormed₁.holds state
  obtain ⟨low₂, _, code₂⟩ := h.wellFormed₂.holds (h.state.trans state)
  have room₁ : r₁.index < dmxCapacity := Nat.lt_succ_of_le high
  have room₂ : r₂.index < dmxCapacity := index ▸ room₁
  have joined : (r₁.withSlot byte now room₁).dmxBytes = (r₂.withSlot byte now room₂).dmxBytes := by
    rw [dmxBytes_withSlot, dmxBytes_withSlot, bytes]
  have spacing : (r₁.withSlot byte now room₁).slotSpacing =
      (r₂.withSlot byte now room₂).slotSpacing := by
    change max (elapsed now r₁.slotTime) _ = max (elapsed now r₂.slotTime) _
    rw [slotTime]
  obtain ⟨t₁, frame₁, ended₁, wf₁⟩ := h.wellFormed₁.onSlot state byte now
  obtain ⟨t₂, frame₂, ended₂, wf₂⟩ := h.wellFormed₂.onSlot (h.state.trans state) byte now
  rw [onSlot_eq byte now room₁] at ended₁ ⊢
  rw [onSlot_eq byte now room₂, ← index] at ended₂ ⊢
  by_cases last : r₁.index + 1 = dmxCapacity
  · rw [if_pos last, if_pos last]
    exact publishDmx_agree (withSlot_startCode byte now room₁ low code₁)
      (withSlot_startCode byte now room₂ low₂ code₂) (Nat.le_add_left 1 r₁.index)
      (Nat.le_of_eq last) (congrArg (· + 1) index) joined spacing interval h.breakTime
      h.lastDmxBreak
  · rw [if_neg last] at ended₁ ended₂ ⊢
    rw [if_neg last]
    cases ended₁
    cases ended₂
    refine Alike.silent ⟨wf₁, wf₂, h.state, ?_, h.breakTime, h.lastDmxBreak, ?_⟩
    · rw [slotTime]
    · change Shares codes _ _ r₁.state
      rw [state]
      exact ⟨congrArg (· + 1) index, joined, rfl, fun _ => spacing, interval⟩

/-- A message byte finds the same declared length in both buffers. -/
theorem Alike.onMessageByte (h : r₁.Alike codes r₂) (state : r₁.state = .rdmData)
    (byte : UInt8) : (r₁.onMessageByte byte).Alike codes (r₂.onMessageByte byte) := by
  obtain ⟨index, bytes, sum⟩ := h.shares state
  have wf₁ := (h.wellFormed₁.onMessageByte state byte).1
  have wf₂ := (h.wellFormed₂.onMessageByte (h.state.trans state) byte).1
  rcases Nat.lt_or_ge r₁.index rdmCapacity with room₁ | full
  · have room₂ : r₂.index < rdmCapacity := index ▸ room₁
    have joined := rdmBytes_congr_withByte bytes byte room₁ room₂
    have total : r₁.checksum + byte.toUInt16 = r₂.checksum + byte.toUInt16 := by rw [sum]
    have complete :
        (r₁.index + 1 > lengthOffset ∧ r₁.index + 1 = (r₁.withByte byte room₁).declaredLength) ↔
        (r₂.index + 1 > lengthOffset ∧ r₂.index + 1 = (r₂.withByte byte room₂).declaredLength) := by
      rw [← index]
      apply and_congr_right
      intro arrived
      rw [declaredLength, declaredLength,
        getElem_congr (congrArg (· + 1) index) joined arrived (by decide)]
    rw [onMessageByte_eq byte room₁] at wf₁ ⊢
    rw [onMessageByte_eq byte room₂] at wf₂ ⊢
    simp only [complete] at wf₁ ⊢
    split
    · rename_i ends
      rw [if_pos ends] at wf₁ wf₂
      exact ⟨wf₁, wf₂, rfl, h.deadline, h.breakTime, h.lastDmxBreak, congrArg (· + 1) index,
        joined, total⟩
    · rename_i goesOn
      rw [if_neg goesOn] at wf₁ wf₂
      refine ⟨wf₁, wf₂, h.state, h.deadline, h.breakTime, h.lastDmxBreak, ?_⟩
      change Shares codes _ _ r₁.state
      rw [state]
      exact ⟨congrArg (· + 1) index, joined, total⟩
  · rw [onMessageByte_full byte full] at wf₁ ⊢
    rw [onMessageByte_full byte (index ▸ full)] at wf₂ ⊢
    exact ⟨wf₁, wf₂, rfl, h.deadline, h.breakTime, h.lastDmxBreak, trivial⟩

theorem Alike.onChecksumHigh (h : r₁.Alike codes r₂) (state : r₁.state = .checksumHigh)
    (byte : UInt8) : (r₁.onChecksumHigh byte).Alike codes (r₂.onChecksumHigh byte) := by
  obtain ⟨index, bytes, sum⟩ := h.shares state
  have wf₁ := (h.wellFormed₁.onChecksumHigh state byte).1
  have wf₂ := (h.wellFormed₂.onChecksumHigh (h.state.trans state) byte).1
  have room₁ := h.wellFormed₁.room state trivial
  have room₂ : r₂.index < rdmCapacity := index ▸ room₁
  rw [onChecksumHigh_eq byte room₁] at wf₁ ⊢
  rw [onChecksumHigh_eq byte room₂] at wf₂ ⊢
  exact ⟨wf₁, wf₂, rfl, h.deadline, h.breakTime, h.lastDmxBreak, congrArg (· + 1) index,
    rdmBytes_congr_withByte bytes byte room₁ room₂, congrArg (· - (byte.toUInt16 <<< 8)) sum⟩

/-- Receivers that end an RDM frame with the same bytes publish the same. -/
theorem publishRdm_agree (now : Micros) (high : r₁.index ≤ rdmCapacity)
    (index : r₁.index = r₂.index) (bytes : r₁.rdmBytes = r₂.rdmBytes) (state₁ : r₁.state = .idle)
    (state₂ : r₂.state = .idle) (none₁ : r₁.deadline = none) (none₂ : r₂.deadline = none)
    (breakTime : r₁.breakTime = r₂.breakTime)
    (lastDmxBreak : 1 ≤ codes → r₁.lastDmxBreak = r₂.lastDmxBreak) :
    Agree codes (r₁.publishRdm now) (r₂.publishRdm now) := by
  rw [publishRdm_eq now high, publishRdm_eq now (index ▸ high), bytes]
  refine ⟨_, _, _, _, rfl, rfl, ?_, rfl, fun _ => rfl⟩
  refine ⟨.of_idle state₁ none₁, .of_idle state₂ none₂, state₂.trans state₁.symm,
    none₁.trans none₂.symm, breakTime, lastDmxBreak, ?_⟩
  change Shares codes _ _ r₁.state
  rw [state₁]
  trivial

theorem Alike.onChecksumLow (h : r₁.Alike codes r₂) (state : r₁.state = .checksumLow)
    (byte : UInt8) (now : Micros) :
    Agree codes (r₁.onChecksumLow byte now) (r₂.onChecksumLow byte now) := by
  obtain ⟨index, bytes, sum⟩ := h.shares state
  obtain ⟨_, _, _, long, _, position, _⟩ := h.wellFormed₁.holds state
  have none₁ := h.wellFormed₁.deadline_eq_none (by rw [state]; decide)
  have none₂ := h.deadline.symm.trans none₁
  have room₁ := h.wellFormed₁.room state trivial
  have room₂ : r₂.index < rdmCapacity := index ▸ room₁
  have joined := rdmBytes_congr_withByte bytes byte room₁ room₂
  have second : (r₁.withByte byte room₁).rdmBuffer[1] = (r₂.withByte byte room₂).rdmBuffer[1] :=
    getElem_congr (congrArg (· + 1) index) joined (by change 1 < r₁.index + 1; omega) (by decide)
  rw [onChecksumLow_eq byte now room₁, onChecksumLow_eq byte now room₂, second, sum]
  split
  · exact publishRdm_agree now (Nat.succ_le_of_lt room₁) (congrArg (· + 1) index) joined rfl rfl
      none₁ none₂ h.breakTime h.lastDmxBreak
  · exact Alike.silent ⟨.of_idle rfl none₁, .of_idle rfl none₂, rfl, h.deadline, h.breakTime,
      h.lastDmxBreak, trivial⟩

theorem Alike.onPreamble (h : r₁.Alike codes r₂) (state : r₁.state = .discoveryPreamble)
    (byte : UInt8) : (r₁.onPreamble byte).Alike codes (r₂.onPreamble byte) := by
  obtain ⟨index, bytes⟩ := h.shares state
  have wf₁ := (h.wellFormed₁.onPreamble state byte).1
  have wf₂ := (h.wellFormed₂.onPreamble (h.state.trans state) byte).1
  have room₁ := h.wellFormed₁.room state trivial
  have room₂ : r₂.index < rdmCapacity := index ▸ room₁
  have joined := rdmBytes_congr_withByte bytes byte room₁ room₂
  rw [onPreamble_eq byte room₁] at wf₁ ⊢
  rw [onPreamble_eq byte room₂, ← index] at wf₂ ⊢
  by_cases ends : byte = delimiterByte ∨ preambleMax ≤ r₁.index
  · rw [if_pos ends] at wf₁ wf₂ ⊢
    rw [if_pos ends]
    exact ⟨wf₁, wf₂, rfl, h.deadline, h.breakTime, h.lastDmxBreak, congrArg (· + 1) index,
      joined, rfl⟩
  · rw [if_neg ends] at wf₁ wf₂ ⊢
    rw [if_neg ends]
    refine ⟨wf₁, wf₂, h.state, h.deadline, h.breakTime, h.lastDmxBreak, ?_⟩
    change Shares codes _ _ r₁.state
    rw [state]
    exact ⟨congrArg (· + 1) index, joined⟩

theorem Alike.onEncodedUid (h : r₁.Alike codes r₂) (state : r₁.state = .discoveryUid)
    (byte : UInt8) : (r₁.onEncodedUid byte).Alike codes (r₂.onEncodedUid byte) := by
  obtain ⟨index, bytes, position⟩ := h.shares state
  have wf₁ := (h.wellFormed₁.onEncodedUid state byte).1
  have wf₂ := (h.wellFormed₂.onEncodedUid (h.state.trans state) byte).1
  have room₁ := h.wellFormed₁.room state trivial
  have room₂ : r₂.index < rdmCapacity := index ▸ room₁
  have joined := rdmBytes_congr_withByte bytes byte room₁ room₂
  rw [onEncodedUid_eq byte room₁] at wf₁ ⊢
  rw [onEncodedUid_eq byte room₂, ← position] at wf₂ ⊢
  by_cases last : r₁.sectionIndex + 1 = encodedUidSize
  · rw [if_pos last] at wf₁ wf₂ ⊢
    rw [if_pos last]
    exact ⟨wf₁, wf₂, rfl, h.deadline, h.breakTime, h.lastDmxBreak, congrArg (· + 1) index,
      joined, rfl⟩
  · rw [if_neg last] at wf₁ wf₂ ⊢
    rw [if_neg last]
    refine ⟨wf₁, wf₂, h.state, h.deadline, h.breakTime, h.lastDmxBreak, ?_⟩
    change Shares codes _ _ r₁.state
    rw [state]
    exact ⟨congrArg (· + 1) index, joined, rfl⟩

theorem Alike.onEncodedSum (h : r₁.Alike codes r₂) (state : r₁.state = .discoveryChecksum)
    (byte : UInt8) (now : Micros) :
    Agree codes (r₁.onEncodedSum byte now) (r₂.onEncodedSum byte now) := by
  obtain ⟨index, bytes, position⟩ := h.shares state
  have none₁ := h.wellFormed₁.deadline_eq_none (by rw [state]; decide)
  have none₂ := h.deadline.symm.trans none₁
  obtain ⟨t₁, frame₁, ended₁, wf₁, _⟩ := h.wellFormed₁.onEncodedSum state byte now
  obtain ⟨t₂, frame₂, ended₂, wf₂, _⟩ :=
    h.wellFormed₂.onEncodedSum (h.state.trans state) byte now
  have room₁ := h.wellFormed₁.room state trivial
  have room₂ : r₂.index < rdmCapacity := index ▸ room₁
  have joined := rdmBytes_congr_withByte bytes byte room₁ room₂
  rw [onEncodedSum_eq byte now room₁] at ended₁ ⊢
  rw [onEncodedSum_eq byte now room₂, ← position] at ended₂ ⊢
  by_cases last : r₁.sectionIndex + 1 = encodedSumSize
  · rw [if_pos last, if_pos last]
    exact publishRdm_agree now (Nat.succ_le_of_lt room₁) (congrArg (· + 1) index) joined rfl rfl
      none₁ none₂ h.breakTime h.lastDmxBreak
  · rw [if_neg last] at ended₁ ended₂ ⊢
    rw [if_neg last]
    cases ended₁
    cases ended₂
    refine Alike.silent ⟨wf₁, wf₂, h.state, h.deadline, h.breakTime, h.lastDmxBreak, ?_⟩
    change Shares codes _ _ r₁.state
    rw [state]
    exact ⟨congrArg (· + 1) index, joined, rfl⟩

/-- A byte counts as a start code where one is awaited. -/
theorem Alike.onByte (h : r₁.Alike codes r₂) (byte : UInt8) (now : Micros) :
    Agree ((if r₁.state = .lineBreak then 1 else 0) + codes)
      (r₁.onByte byte now) (r₂.onByte byte now) := by
  unfold Receiver.onByte
  rw [h.state]
  cases state : r₁.state with
  | lineBreak => exact h.onStartCode state byte now
  | idle =>
      rw [if_neg (by decide), Nat.zero_add]
      exact h.onIdleByte state byte
  | dmxData =>
      rw [if_neg (by decide), Nat.zero_add]
      exact h.onSlot state byte now
  | rdmData =>
      rw [if_neg (by decide), Nat.zero_add]
      exact (h.onMessageByte state byte).silent
  | checksumHigh =>
      rw [if_neg (by decide), Nat.zero_add]
      exact (h.onChecksumHigh state byte).silent
  | checksumLow =>
      rw [if_neg (by decide), Nat.zero_add]
      exact h.onChecksumLow state byte now
  | discoveryPreamble =>
      rw [if_neg (by decide), Nat.zero_add]
      exact (h.onPreamble state byte).silent
  | discoveryUid =>
      rw [if_neg (by decide), Nat.zero_add]
      exact (h.onEncodedUid state byte).silent
  | discoveryChecksum =>
      rw [if_neg (by decide), Nat.zero_add]
      exact h.onEncodedSum state byte now

def awaits (r : Receiver) : Bool := decide (r.state = .lineBreak)

theorem Alike.attend (h : r₁.Alike codes r₂) (cause : Cause) (now : Micros) :
    Agree (cause.codes r₁.awaits + codes) (r₁.attend cause now) (r₂.attend cause now) := by
  cases cause with
  | timeout =>
      rw [Cause.codes, Nat.zero_add]
      exact h.onTimeout now
  | signal signal =>
      cases signal with
      | lineBreak =>
          rw [Cause.codes, Nat.zero_add]
          exact h.onBreak now
      | byte value =>
          simp only [Cause.codes, awaits, decide_eq_true_eq]
          exact h.onByte value now
      | damaged =>
          rw [Cause.codes, Nat.zero_add]
          exact Alike.silent ⟨.of_idle rfl rfl, .of_idle rfl rfl, rfl, rfl, h.breakTime,
            h.lastDmxBreak, trivial⟩

end

/-- What a receiver awaits follows from the causes alone. -/
theorem WellFormed.awaits_attend {r t : Receiver} {cause : Cause} {now : Micros}
    {frame : Option Frame} (h : r.WellFormed) (ended : r.attend cause now = .ok (t, frame)) :
    t.awaits = cause.awaits r.awaits := by
  cases h.responds ended with
  | stale | damaged => rfl
  | timeOut slots => simp [awaits, Cause.awaits, slots]
  | lineBreak => simp [awaits, Cause.awaits]
  | startCode _ began => simp [awaits, Cause.awaits, (begins_onStartCode began).behind]
  | byte _ _ proceeds => simp [awaits, Cause.awaits, proceeds.behind]

/-- Alike receivers that live through the same occasion publish the same frames, but
for intervals of the first start code, and stay alike. -/
theorem Alike.step {codes : Nat} {r₁ r₂ t₁ t₂ : Receiver} {o₁ o₂ : Occasion}
    {story₁ story₂ : List Occasion} (h : r₁.Alike codes r₂)
    (follows₁ : Follows r₁ (o₁ :: story₁) t₁) (follows₂ : Follows r₂ (o₂ :: story₂) t₂)
    (same : o₁.stimulus = o₂.stimulus) :
    ∃ m₁ m₂, Follows m₁ story₁ t₁ ∧ Follows m₂ story₂ t₂ ∧
      m₁.Alike (o₁.cause.codes r₁.awaits + codes) m₂ ∧
      m₁.awaits = o₁.cause.awaits r₁.awaits ∧
      o₁.published.map Frame.withoutInterval = o₂.published.map Frame.withoutInterval ∧
      (2 ≤ o₁.cause.codes r₁.awaits + codes → o₁.published = o₂.published) := by
  obtain ⟨cause, time⟩ := Prod.mk.inj same
  cases follows₁ with
  | cons now₁ published₁ later₁ =>
      cases follows₂ with
      | cons now₂ published₂ later₂ =>
          obtain ⟨_, _, _, _, ended₁, ended₂, alike, apart, equal⟩ := h.attend o₁.cause o₁.time
          have awaits := h.wellFormed₁.awaits_attend now₁
          rw [← cause, ← time] at now₂
          cases now₁.symm.trans ended₁
          cases now₂.symm.trans ended₂
          refine ⟨_, _, later₁, later₂, alike, awaits, ?_, ?_⟩
          · rw [published₁, published₂, ← Option.toList_map, ← Option.toList_map, apart]
          · intro second
            rw [published₁, published₂, equal second]

/-- Alike receivers that live through the same causes at the same times publish
the same frames at the same steps; the intervals between breaks agree from the
second start code on. -/
theorem Alike.published_eq {codes i : Nat} {r₁ r₂ t₁ t₂ : Receiver}
    {story₁ story₂ : List Occasion} {o₁ o₂ : Occasion} (h : r₁.Alike codes r₂)
    (follows₁ : Follows r₁ story₁ t₁) (follows₂ : Follows r₂ story₂ t₂)
    (same : story₁.map Occasion.stimulus = story₂.map Occasion.stimulus)
    (at₁ : story₁[i]? = some o₁) (at₂ : story₂[i]? = some o₂) :
    o₁.published.map Frame.withoutInterval = o₂.published.map Frame.withoutInterval ∧
      (2 ≤ startCodes r₁.awaits (story₁.take (i + 1)) + codes →
        o₁.published = o₂.published) := by
  induction i generalizing codes r₁ r₂ story₁ story₂ with
  | zero =>
      obtain ⟨rest₁, rfl⟩ := List.head?_eq_some_iff.mp (List.head?_eq_getElem? ▸ at₁)
      obtain ⟨rest₂, rfl⟩ := List.head?_eq_some_iff.mp (List.head?_eq_getElem? ▸ at₂)
      obtain ⟨_, _, _, _, _, _, apart, equal⟩ :=
        h.step follows₁ follows₂ (List.cons.inj same).1
      refine ⟨apart, ?_⟩
      intro second
      exact equal (by simpa [startCodes] using second)
  | succ i ih =>
      cases story₁ with
      | nil => simp at at₁
      | cons p₁ rest₁ =>
          cases story₂ with
          | nil => simp at at₂
          | cons p₂ rest₂ =>
              obtain ⟨step, others⟩ := List.cons.inj same
              obtain ⟨_, _, later₁, later₂, alike, awaits, _⟩ := h.step follows₁ follows₂ step
              obtain ⟨apart, equal⟩ := ih alike later₁ later₂ others at₁ at₂
              refine ⟨apart, ?_⟩
              intro second
              rw [List.take_succ_cons, startCodes] at second
              exact equal (by rw [awaits]; omega)

/-- Behind a common break, receivers publish the same frames at the same steps,
whatever either of them held before. -/
theorem published_eq_of_lineBreak {i : Nat} {r₁ r₂ t₁ t₂ : Receiver}
    {story₁ story₂ : List Occasion} {first o₁ o₂ : Occasion}
    (follows₁ : Follows r₁ (first :: story₁) t₁) {first₂ : Occasion}
    (follows₂ : Follows r₂ (first₂ :: story₂) t₂) (isBreak : first.IsBreak)
    (same : (first :: story₁).map Occasion.stimulus = (first₂ :: story₂).map Occasion.stimulus)
    (at₁ : story₁[i]? = some o₁) (at₂ : story₂[i]? = some o₂) :
    o₁.published.map Frame.withoutInterval = o₂.published.map Frame.withoutInterval ∧
      (2 ≤ startCodes true (story₁.take (i + 1)) → o₁.published = o₂.published) := by
  cases follows₁ with
  | @cons _ m₁ _ _ _ _ now₁ _ later₁ =>
      cases follows₂ with
      | @cons _ m₂ _ _ _ _ now₂ _ later₂ =>
          obtain ⟨step, others⟩ := List.cons.inj same
          obtain ⟨cause, time⟩ := Prod.mk.inj step
          rw [← cause, ← time, isBreak] at now₂
          rw [isBreak] at now₁
          have awaits : m₁.awaits = true := by simp [Receiver.awaits, (onBreak_ok now₁).1]
          have equal := (alike_onBreak now₁ now₂).published_eq later₁ later₂ others at₁ at₂
          rwa [awaits] at equal

end Receiver

end Dmx512
