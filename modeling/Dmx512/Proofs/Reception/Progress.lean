import Dmx512.Proofs.Reception.Story

/-!
# How a receiver moves on

Behind its start code a packet changes nothing of what a receiver remembers of breaks, and
the bytes of one kind of packet never lead into another kind. `Proceeds` says so of every
byte that is no start code, and `Begins` of the start codes. Timeouts and breaks end a DMX frame
or nothing. `Responds` lists what a receiver can do at all, once.

What each response preserves holds of every story: `Follows.preserves` is that induction.
-/

namespace Dmx512

open Standard

def ReceiveState.IsDiscovery : ReceiveState → Prop
  | .discoveryPreamble | .discoveryUid | .discoveryChecksum => True
  | .idle | .lineBreak | .dmxData | .rdmData | .checksumHigh | .checksumLow => False

def ReceiveState.IsMessage : ReceiveState → Prop
  | .rdmData | .checksumHigh | .checksumLow => True
  | .idle | .lineBreak | .dmxData | .discoveryPreamble | .discoveryUid | .discoveryChecksum => False

/-- The DMX packets and the RDM packets that were counted. -/
def ReceiveCounters.packets (counters : ReceiveCounters) : UInt32 × UInt32 :=
  (counters.dmxPackets, counters.rdmPackets)

namespace Receiver

variable {r t : Receiver} {byte : UInt8} {now : Micros} {frame : Option Frame}

/-- How a receiver moves on with a byte that is no start code: breaks are remembered as
before, no packet is counted, a frame under construction stays one of its kind, and what is
published is of it. -/
structure Proceeds (r t : Receiver) (frame : Option Frame) : Prop where
  breakTime : t.breakTime = r.breakTime
  lastDmxBreak : t.lastDmxBreak = r.lastDmxBreak
  breakToBreak : t.breakToBreak = r.breakToBreak
  packets : t.counters.packets = r.counters.packets
  behind : t.state ≠ .lineBreak
  slots : t.state = .dmxData → r.state = .dmxData
  message : t.state.IsMessage → r.state.IsMessage
  response : t.state.IsDiscovery → r.state = .idle ∨ r.state.IsDiscovery
  dmx : ∀ published, frame = some (.dmx published) →
    r.state = .dmxData ∧ published.breakToBreak = r.breakToBreak
  rdm : ∀ published, frame = some (.rdm published) →
    r.state = .checksumLow ∨ r.state = .discoveryChecksum
  completed : frame.isSome → t.state = .idle

/-- A byte that publishes nothing leads to a frame of the same kind. -/
theorem Proceeds.silent (breakTime : t.breakTime = r.breakTime)
    (lastDmxBreak : t.lastDmxBreak = r.lastDmxBreak)
    (breakToBreak : t.breakToBreak = r.breakToBreak)
    (packets : t.counters.packets = r.counters.packets) (behind : t.state ≠ .lineBreak)
    (slots : t.state = .dmxData → r.state = .dmxData)
    (message : t.state.IsMessage → r.state.IsMessage)
    (response : t.state.IsDiscovery → r.state = .idle ∨ r.state.IsDiscovery) :
    r.Proceeds t none :=
  ⟨breakTime, lastDmxBreak, breakToBreak, packets, behind, slots, message, response, by simp,
    by simp, nofun⟩

section WithByte

variable (room : r.index < rdmCapacity) {checksum : UInt16} {sectionIndex : Nat}
variable {counters : ReceiveCounters} (packets : counters.packets = r.counters.packets)
include packets

/-- A byte of an RDM frame leads to a state of that frame, or drops it. -/
theorem proceeds_withByte {state : ReceiveState}
    (other : state ≠ .lineBreak ∧ state ≠ .dmxData) (message : state.IsMessage → r.state.IsMessage)
    (response : state.IsDiscovery → r.state = .idle ∨ r.state.IsDiscovery) :
    r.Proceeds { r.withByte byte room with checksum, sectionIndex, counters, state } none :=
  .silent rfl rfl rfl packets other.1 (fun slots => absurd slots other.2) message response

/-- The last byte of an RDM frame publishes it. -/
theorem proceeds_published {published : RdmFrame}
    (last : r.state = .checksumLow ∨ r.state = .discoveryChecksum) :
    r.Proceeds { r.withByte byte room with checksum, sectionIndex, counters, state := .idle }
      (some (.rdm published)) :=
  ⟨rfl, rfl, rfl, packets, by simp, by simp, False.elim, False.elim, by simp, fun _ _ => last,
    fun _ => rfl⟩

end WithByte

namespace WellFormed

theorem proceeds_onIdleByte (state : r.state = .idle) (ended : r.onIdleByte byte = .ok t) :
    r.Proceeds t none := by
  rw [Receiver.onIdleByte] at ended
  split at ended
  · obtain ⟨buffer, _, done⟩ := Checked.bind_ok ended
    cases done
    exact .silent rfl rfl rfl rfl (by simp) (by simp) False.elim fun _ => .inl state
  · cases ended
    exact .silent rfl rfl rfl rfl (by simp [state]) id id fun _ => .inl state

theorem proceeds_onSlot (h : r.WellFormed) (state : r.state = .dmxData)
    (ended : r.onSlot byte now = .ok (t, frame)) : r.Proceeds t frame := by
  obtain ⟨low, high, code⟩ := h.holds state
  have room : r.index < dmxCapacity := Nat.lt_succ_of_le high
  rw [onSlot_eq byte now room] at ended
  split at ended
  · have first := withSlot_startCode byte now room low code
    rw [publishDmx_eq (Nat.le_add_left 1 r.index) (Nat.succ_le_of_lt room) first] at ended
    cases ended
    exact ⟨rfl, rfl, rfl, rfl, by simp, by simp, False.elim, False.elim,
      by rintro _ ⟨⟩; exact ⟨state, rfl⟩, by simp, fun _ => rfl⟩
  · cases ended
    have kept : ¬ r.state.IsDiscovery := by simp [state, ReceiveState.IsDiscovery]
    exact .silent rfl rfl rfl rfl (by simp [withSlot, state]) (fun _ => state) id
      fun discovery => absurd discovery kept

theorem proceeds_onMessageByte (state : r.state = .rdmData) :
    r.Proceeds (r.onMessageByte byte) none := by
  have message : r.state.IsMessage := by rw [state]; trivial
  by_cases room : r.index < rdmCapacity
  · rw [onMessageByte_eq byte room]
    split
    · exact proceeds_withByte room (by rfl) (by decide) (fun _ => message) False.elim
    · have phase : r.state ≠ .lineBreak ∧ r.state ≠ .dmxData := by simp [state]
      exact proceeds_withByte room (by rfl) phase id .inr
  · rw [onMessageByte_full byte (Nat.le_of_not_lt room)]
    exact .silent rfl rfl rfl rfl (by simp) (by simp) False.elim False.elim

theorem proceeds_onChecksumLow (h : r.WellFormed) (state : r.state = .checksumLow)
    (ended : r.onChecksumLow byte now = .ok (t, frame)) : r.Proceeds t frame := by
  have room := h.room state trivial
  rw [onChecksumLow_eq byte now room] at ended
  split at ended
  · rw [publishRdm_eq now (Nat.succ_le_of_lt room)] at ended
    cases ended
    exact proceeds_published room (by rfl) (.inl state)
  · cases ended
    exact proceeds_withByte room (by rfl) (by decide) False.elim False.elim

theorem proceeds_onPreamble (h : r.WellFormed) (state : r.state = .discoveryPreamble) :
    r.Proceeds (r.onPreamble byte) none := by
  have room := h.room state trivial
  have discovery : r.state.IsDiscovery := by rw [state]; trivial
  rw [onPreamble_eq byte room]
  split
  · exact proceeds_withByte room (by rfl) (by decide) False.elim fun _ => .inr discovery
  · have phase : r.state ≠ .lineBreak ∧ r.state ≠ .dmxData := by simp [state]
    exact proceeds_withByte room (by rfl) phase id .inr

theorem proceeds_onEncodedUid (h : r.WellFormed) (state : r.state = .discoveryUid) :
    r.Proceeds (r.onEncodedUid byte) none := by
  have room := h.room state trivial
  have discovery : r.state.IsDiscovery := by rw [state]; trivial
  rw [onEncodedUid_eq byte room]
  split
  · exact proceeds_withByte room (by rfl) (by decide) False.elim fun _ => .inr discovery
  · have phase : r.state ≠ .lineBreak ∧ r.state ≠ .dmxData := by simp [state]
    exact proceeds_withByte room (by rfl) phase id .inr

theorem proceeds_onEncodedSum (h : r.WellFormed) (state : r.state = .discoveryChecksum)
    (ended : r.onEncodedSum byte now = .ok (t, frame)) : r.Proceeds t frame := by
  have room := h.room state trivial
  rw [onEncodedSum_eq byte now room] at ended
  split at ended
  · rw [publishRdm_eq now (Nat.succ_le_of_lt room)] at ended
    cases ended
    exact proceeds_published room (by rfl) (.inr state)
  · cases ended
    have phase : r.state ≠ .lineBreak ∧ r.state ≠ .dmxData := by simp [state]
    exact proceeds_withByte room (by rfl) phase id .inr

/-- Only a start code begins a packet. -/
theorem proceeds (h : r.WellFormed) (state : r.state ≠ .lineBreak)
    (ended : r.onByte byte now = .ok (t, frame)) : r.Proceeds t frame := by
  rw [Receiver.onByte] at ended
  cases phase : r.state with
  | idle =>
      rw [phase] at ended
      obtain ⟨u, idle, done⟩ := Checked.bind_ok ended
      cases done
      exact proceeds_onIdleByte phase idle
  | lineBreak => exact absurd phase state
  | dmxData =>
      rw [phase] at ended
      exact h.proceeds_onSlot phase ended
  | rdmData =>
      rw [phase] at ended
      cases ended
      exact proceeds_onMessageByte phase
  | checksumHigh =>
      rw [phase] at ended
      cases ended
      have room := h.room phase trivial
      rw [onChecksumHigh_eq byte room]
      have message : r.state.IsMessage := by rw [phase]; trivial
      exact proceeds_withByte room (by rfl) (by decide) (fun _ => message) False.elim
  | checksumLow =>
      rw [phase] at ended
      exact h.proceeds_onChecksumLow phase ended
  | discoveryPreamble =>
      rw [phase] at ended
      cases ended
      exact h.proceeds_onPreamble phase
  | discoveryUid =>
      rw [phase] at ended
      cases ended
      exact h.proceeds_onEncodedUid phase
  | discoveryChecksum =>
      rw [phase] at ended
      exact h.proceeds_onEncodedSum phase ended

end WellFormed

/-- A timeout ends a DMX frame, or leaves a receiver as it is. -/
theorem WellFormed.onTimeout_cases (h : r.WellFormed)
    (ended : r.onTimeout now = .ok (t, frame)) :
    t = r ∧ frame = none ∨
      r.state = .dmxData ∧ frame = some (.dmx r.dmxFrame) ∧ ∃ counters : ReceiveCounters,
        counters.packets = r.counters.packets ∧
          t = { r with state := .idle, deadline := none, counters } := by
  by_cases slots : r.state = .dmxData
  · obtain ⟨low, high, code⟩ := h.holds slots
    rw [Receiver.onTimeout] at ended
    split at ended
    · rw [publishDmx_eq low (Nat.le_succ_of_le high) code] at ended
      cases ended
      exact .inr ⟨slots, rfl, _, by rfl, rfl⟩
    · cases ended
      exact .inl ⟨rfl, rfl⟩
  · rw [onTimeout_stale slots] at ended
    cases ended
    exact .inl ⟨rfl, rfl⟩

/-- A break ends what a timeout would, and is remembered itself. -/
theorem WellFormed.onBreak_cases (h : r.WellFormed) (ended : r.onBreak now = .ok (t, frame)) :
    (frame = none ∨ r.state = .dmxData ∧ frame = some (.dmx r.dmxFrame)) ∧
      ∃ counters : ReceiveCounters, counters.packets = r.counters.packets ∧
        t = { r with state := .lineBreak, deadline := none, breakTime := now, counters } := by
  obtain ⟨⟨m, shown⟩, timed, done⟩ := Checked.bind_ok ended
  cases done
  rcases h.onTimeout_cases timed with ⟨rfl, rfl⟩ | ⟨slots, rfl, counters, packets, rfl⟩
  · exact ⟨.inl rfl, _, rfl, rfl⟩
  · exact ⟨.inr ⟨slots, rfl⟩, counters, packets, rfl⟩

/-- How a receiver responds to a cause: what becomes of it, and what it publishes. -/
inductive Responds (r : Receiver) (now : Micros) : Cause → Receiver → Option Frame → Prop where
  /-- A timeout comes early, or finds no slots. -/
  | stale : Responds r now .timeout r none
  /-- A timeout ends the DMX frame. -/
  | timeOut (slots : r.state = .dmxData) (counters : ReceiveCounters)
      (packets : counters.packets = r.counters.packets) :
      Responds r now .timeout { r with state := .idle, deadline := none, counters }
        (some (.dmx r.dmxFrame))
  /-- A break ends an overdue DMX frame and drops any other. -/
  | lineBreak {frame : Option Frame} (counters : ReceiveCounters)
      (packets : counters.packets = r.counters.packets)
      (ends : frame = none ∨ r.state = .dmxData ∧ frame = some (.dmx r.dmxFrame)) :
      Responds r now (.signal .lineBreak)
        { r with state := .lineBreak, deadline := none, breakTime := now, counters } frame
  /-- A damaged byte drops the frame. -/
  | damaged : Responds r now (.signal .damaged) r.dropFrame none
  /-- A start code begins a packet. -/
  | startCode {t : Receiver} {code : UInt8} (awaited : r.state = .lineBreak)
      (began : r.onStartCode code now = .ok t) : Responds r now (.signal (.byte code)) t none
  /-- Any other byte goes on with what is under construction. -/
  | byte {t : Receiver} {value : UInt8} {frame : Option Frame} (behind : r.state ≠ .lineBreak)
      (served : r.onByte value now = .ok (t, frame)) (proceeds : r.Proceeds t frame) :
      Responds r now (.signal (.byte value)) t frame

theorem WellFormed.responds (h : r.WellFormed) {cause : Cause}
    (ended : r.attend cause now = .ok (t, frame)) : r.Responds now cause t frame := by
  cases cause with
  | timeout =>
      rcases h.onTimeout_cases ended with ⟨rfl, rfl⟩ | ⟨slots, rfl, counters, packets, rfl⟩
      · exact .stale
      · exact .timeOut slots counters packets
  | signal signal =>
      cases signal with
      | lineBreak =>
          obtain ⟨ends, counters, packets, rfl⟩ := h.onBreak_cases ended
          exact .lineBreak counters packets ends
      | damaged =>
          cases ended
          exact .damaged
      | byte value =>
          change r.onByte value now = _ at ended
          by_cases awaited : r.state = .lineBreak
          · rw [Receiver.onByte, awaited] at ended
            obtain ⟨u, began, done⟩ := Checked.bind_ok ended
            cases done
            exact .startCode awaited began
          · exact .byte awaited ended (h.proceeds awaited ended)

/-- How a receiver begins a packet with its start code: a start code of slots or of a message
is counted, and leads to a frame of its kind; any other leads to none. -/
structure Begins (r : Receiver) (code : UInt8) (t : Receiver) : Prop where
  packets : t.counters.packets =
    (r.counters.dmxPackets + if code = dmxStartCode then 1 else 0,
      r.counters.rdmPackets + if code = rdmStartCode then 1 else 0)
  behind : t.state ≠ .lineBreak
  slots : t.state = .dmxData → code = dmxStartCode
  message : t.state.IsMessage → code = rdmStartCode
  other : ¬ t.state.IsDiscovery

theorem begins_onStartCode {code : UInt8} (began : r.onStartCode code now = .ok t) :
    r.Begins code t := by
  rw [Receiver.onStartCode] at began
  split at began
  · rename_i dmx
    obtain ⟨buffer, _, done⟩ := Checked.bind_ok began
    cases done
    subst dmx
    exact ⟨by simp [ReceiveCounters.packets, dmxStartCode, rdmStartCode], by simp, fun _ => rfl,
      False.elim, id⟩
  · rename_i notDmx
    split at began
    · rename_i rdm
      obtain ⟨buffer, _, done⟩ := Checked.bind_ok began
      cases done
      subst rdm
      exact ⟨by simp [ReceiveCounters.packets, dmxStartCode, rdmStartCode], by simp, by simp,
        fun _ => rfl, id⟩
    · rename_i notRdm
      cases began
      exact ⟨by simp [ReceiveCounters.packets, notDmx, notRdm], by simp, by simp, False.elim, id⟩

/-- A receiver that was reset, or never used. -/
structure IsFresh (r : Receiver) : Prop where
  state : r.state = .idle
  deadline : r.deadline = none
  lastDmxBreak : r.lastDmxBreak = none

theorem IsFresh.wellFormed (h : r.IsFresh) : r.WellFormed :=
  .of_idle h.state h.deadline

theorem IsFresh.reset (r : Receiver) : r.reset.IsFresh := ⟨rfl, rfl, rfl⟩

/-- What every response preserves holds along a story. The invariant may speak of what came
before. -/
theorem Follows.preserves (holds : List Occasion → Receiver → Prop) {before story : List Occasion}
    (step : ∀ before r cause now t frame, holds before r → r.attend cause now = .ok (t, frame) →
      holds (before ++ [⟨cause, now, frame.toList⟩]) t)
    (start : holds before r) (follows : Follows r story t) : holds (before ++ story) t := by
  -- What came before grows by each occasion, as the invariant may speak of all of it.
  induction follows generalizing before with
  | nil => rwa [List.append_nil]
  | @cons r m t o rest frame now published _ ih =>
      have next := step before r o.cause o.time m frame start now
      have same : (⟨o.cause, o.time, frame.toList⟩ : Occasion) = o := by rw [← published]
      rw [same] at next
      have parts : before ++ o :: rest = before ++ [o] ++ rest := by simp
      rw [parts]
      exact ih next

end Receiver

end Dmx512
