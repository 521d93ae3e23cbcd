import Dmx512.Proofs.Reception.Progress
import Dmx512.Proofs.Reception.Scanning

/-!
# Frames are parts of what was heard

The buffers of a receiver are not cleared between frames, but nothing of an earlier frame gets
into a later one. What a receiver has gathered of the frame under construction is the end of what
has arrived without error, and a frame that it publishes is a part of that, unbroken and in order.
-/

namespace Dmx512

open Standard

def Frame.data : Frame → List UInt8
  | .dmx frame => frame.data
  | .rdm frame => frame.data

namespace Receiver

/-- The bytes of the frame under construction. -/
def gathered (r : Receiver) : List UInt8 :=
  match r.state with
  | .idle | .lineBreak => []
  | .dmxData => r.dmxBytes
  | .rdmData | .checksumHigh | .checksumLow | .discoveryPreamble | .discoveryUid
  | .discoveryChecksum => r.rdmBytes

variable {r t : Receiver} {frame : Option Frame} {now : Micros} {bytes : List UInt8}
variable {value : UInt8}

/-- What is gathered and what is published are the end of some bytes. -/
structure DrawsOn (bytes : List UInt8) (t : Receiver) (frame : Option Frame) : Prop where
  kept : t.gathered <:+ bytes
  published : ∀ shown, frame = some shown → shown.data <:+ bytes

namespace DrawsOn

/-- Between frames nothing is gathered. -/
theorem of_between (state : t.state = .idle ∨ t.state = .lineBreak)
    (published : ∀ shown, frame = some shown → shown.data <:+ bytes) : DrawsOn bytes t frame := by
  refine ⟨?_, published⟩
  rcases state with state | state <;> rw [gathered, state] <;> exact List.nil_suffix

theorem of_silent (state : t.state = .idle) : DrawsOn bytes t none :=
  of_between (.inl state) (by simp)

theorem of_slots (state : t.state = .dmxData) (joined : t.dmxBytes = bytes) :
    DrawsOn bytes t none := by
  have same : t.gathered = bytes := by rw [gathered, state, joined]
  exact ⟨same ▸ List.suffix_rfl, by simp⟩

theorem of_rdm (other : t.state ≠ .dmxData) (joined : t.rdmBytes = bytes) :
    DrawsOn bytes t none := by
  refine ⟨?_, by simp⟩
  rw [gathered, ← joined]
  cases state : t.state with
  | dmxData => exact absurd state other
  | idle | lineBreak => exact List.nil_suffix
  | rdmData | checksumHigh | checksumLow | discoveryPreamble | discoveryUid | discoveryChecksum =>
      exact List.suffix_rfl

end DrawsOn

namespace WellFormed

/-- A byte between frames begins a discovery response, or nothing. -/
theorem draws_idle (state : r.state = .idle) (ended : r.onIdleByte value = .ok t) :
    DrawsOn [value] t none := by
  by_cases preamble : value = preambleByte
  · subst preamble
    cases ended.symm.trans r.onIdleByte_preamble
    exact .of_rdm (by simp) (rdmBytes_startCode preambleByte rfl rfl)
  · rw [Receiver.onIdleByte, if_neg preamble] at ended
    cases ended
    exact .of_silent state

theorem draws_startCode (ended : r.onStartCode value now = .ok t) : DrawsOn [value] t none := by
  by_cases dmx : value = dmxStartCode
  · subst dmx
    obtain ⟨counters, started⟩ := r.onStartCode_dmx now
    cases ended.symm.trans started
    exact .of_slots rfl (dmxBytes_startCode dmxStartCode rfl rfl)
  · by_cases rdm : value = rdmStartCode
    · subst rdm
      obtain ⟨counters, started⟩ := r.onStartCode_rdm now
      cases ended.symm.trans started
      exact .of_rdm (by simp) (rdmBytes_startCode rdmStartCode rfl rfl)
    · cases ended.symm.trans (onStartCode_other now dmx rdm)
      exact .of_silent rfl

theorem draws_slot (h : r.WellFormed) (state : r.state = .dmxData)
    (ended : r.onSlot value now = .ok (t, frame)) : DrawsOn (r.dmxBytes ++ [value]) t frame := by
  obtain ⟨low, high, code⟩ := h.holds state
  have room : r.index < dmxCapacity := Nat.lt_succ_of_le high
  have joined := dmxBytes_withSlot value now room
  rw [onSlot_eq value now room] at ended
  split at ended
  · have first := withSlot_startCode value now room low code
    rw [publishDmx_eq (Nat.le_add_left 1 r.index) (Nat.succ_le_of_lt room) first] at ended
    cases ended
    refine .of_between (.inl rfl) ?_
    rintro _ ⟨⟩
    exact (data_dmxFrame (Nat.le_add_left 1 r.index) first).trans joined ▸ List.suffix_rfl
  · cases ended
    exact .of_slots state joined

theorem draws_message (h : r.WellFormed) (state : r.state = .rdmData) :
    DrawsOn (r.rdmBytes ++ [value]) (r.onMessageByte value) none := by
  obtain ⟨_, joins⟩ := h.onMessageByte state value
  split at joins
  · exact .of_silent joins
  · obtain ⟨joined, goesOn | ends⟩ := joins
    · exact .of_rdm (by rw [goesOn]; decide) joined
    · exact .of_rdm (by rw [ends]; decide) joined

theorem draws_checksumLow (h : r.WellFormed) (state : r.state = .checksumLow)
    (ended : r.onChecksumLow value now = .ok (t, frame)) :
    DrawsOn (r.rdmBytes ++ [value]) t frame := by
  obtain ⟨message, high, u, shown, _, _, _, ended', _, idle, accepts, _⟩ :=
    h.onChecksumLow state value now
  cases ended.symm.trans ended'
  refine .of_between (.inl idle) ?_
  rintro published rfl
  split at accepts
  · cases accepts
    exact List.suffix_rfl
  · cases accepts

theorem draws_preamble (h : r.WellFormed) (state : r.state = .discoveryPreamble) :
    DrawsOn (r.rdmBytes ++ [value]) (r.onPreamble value) none := by
  obtain ⟨_, joined, ends⟩ := h.onPreamble state value
  refine .of_rdm ?_ joined
  split at ends
  · rw [ends.1]
    decide
  · rw [ends]
    decide

theorem draws_uid (h : r.WellFormed) (state : r.state = .discoveryUid) :
    DrawsOn (r.rdmBytes ++ [value]) (r.onEncodedUid value) none := by
  obtain ⟨_, joined, ends⟩ := h.onEncodedUid state value
  refine .of_rdm ?_ joined
  split at ends <;> rw [ends.1] <;> decide

theorem draws_sum (h : r.WellFormed) (state : r.state = .discoveryChecksum)
    (ended : r.onEncodedSum value now = .ok (t, frame)) :
    DrawsOn (r.rdmBytes ++ [value]) t frame := by
  obtain ⟨u, shown, ended', _, joined, ends⟩ := h.onEncodedSum state value now
  cases ended.symm.trans ended'
  split at ends
  · obtain ⟨idle, rfl, _⟩ := ends
    refine .of_between (.inl idle) ?_
    rintro _ ⟨⟩
    exact List.suffix_rfl
  · obtain ⟨goesOn, rfl, _⟩ := ends
    exact .of_rdm (by rw [goesOn]; decide) joined

/-- A byte joins what was gathered before. -/
theorem draws_byte (h : r.WellFormed) (ended : r.onByte value now = .ok (t, frame)) :
    DrawsOn (r.gathered ++ [value]) t frame := by
  rw [Receiver.onByte] at ended
  rw [gathered]
  cases state : r.state with
  | idle =>
      rw [state] at ended
      obtain ⟨u, begun, done⟩ := Checked.bind_ok ended
      cases done
      exact draws_idle state begun
  | lineBreak =>
      rw [state] at ended
      obtain ⟨u, begun, done⟩ := Checked.bind_ok ended
      cases done
      exact draws_startCode begun
  | dmxData =>
      rw [state] at ended
      exact h.draws_slot state ended
  | rdmData =>
      rw [state] at ended
      cases ended
      exact h.draws_message state
  | checksumHigh =>
      rw [state] at ended
      cases ended
      obtain ⟨_, low, joined⟩ := h.onChecksumHigh state value
      exact .of_rdm (by rw [low]; decide) joined
  | checksumLow =>
      rw [state] at ended
      exact h.draws_checksumLow state ended
  | discoveryPreamble =>
      rw [state] at ended
      cases ended
      exact h.draws_preamble state
  | discoveryUid =>
      rw [state] at ended
      cases ended
      exact h.draws_uid state
  | discoveryChecksum =>
      rw [state] at ended
      exact h.draws_sum state ended

/-- A frame of slots that has ended is what was gathered. -/
theorem data_ended (h : r.WellFormed) (slots : r.state = .dmxData) :
    (Frame.dmx r.dmxFrame).data = r.gathered := by
  obtain ⟨low, _, code⟩ := h.holds slots
  rw [gathered, slots]
  exact data_dmxFrame low code

/-- Whatever a receiver responds to, what it gathers and publishes has come. -/
theorem draws (h : r.WellFormed) {cause : Cause} (ended : r.attend cause now = .ok (t, frame)) :
    DrawsOn (r.gathered ++ storyBytes [⟨cause, now, []⟩]) t frame := by
  cases h.responds ended with
  | stale =>
      change DrawsOn (r.gathered ++ []) r none
      rw [List.append_nil]
      exact ⟨List.suffix_rfl, nofun⟩
  | timeOut slots counters =>
      change DrawsOn (r.gathered ++ []) _ _
      rw [List.append_nil]
      refine .of_between (.inl rfl) ?_
      rintro _ ⟨⟩
      exact h.data_ended slots ▸ List.suffix_rfl
  | lineBreak counters _ ends =>
      change DrawsOn (r.gathered ++ []) _ _
      rw [List.append_nil]
      refine .of_between (.inr rfl) ?_
      rintro shown rfl
      rcases ends with none | ⟨slots, same⟩
      · cases none
      · cases same
        exact h.data_ended slots ▸ List.suffix_rfl
  | damaged => exact .of_silent rfl
  | startCode awaited began =>
      rw [gathered, awaited]
      exact draws_startCode began
  | byte behind served => exact h.draws_byte served

end WellFormed

/-- Every frame that a fresh receiver publishes is an unbroken part of what it has heard. -/
theorem IsFresh.published_infix {story : List Occasion} (fresh : r.IsFresh)
    (follows : Follows r story t) {o : Occasion} (told : o ∈ story) {shown : Frame}
    (published : shown ∈ o.published) : shown.data <:+: storyBytes story := by
  let gathering (story : List Occasion) (r : Receiver) : Prop :=
    r.WellFormed ∧ r.gathered <:+ storyBytes story ∧
      ∀ o ∈ story, ∀ shown ∈ o.published, shown.data <:+: storyBytes story
  have nothing : r.gathered = [] := by rw [gathered, fresh.state]
  have start : gathering [] r := ⟨fresh.wellFormed, nothing ▸ List.nil_suffix, nofun⟩
  have held : gathering story t := by
    refine follows.preserves gathering ?_ start
    intro before r cause now t frame ⟨wf, kept, earlier⟩ attended
    have draws := wf.draws attended
    have longer : r.gathered ++ storyBytes [⟨cause, now, []⟩] <:+
        storyBytes (before ++ [⟨cause, now, frame.toList⟩]) := by
      rw [storyBytes_append]
      obtain ⟨front, whole⟩ := kept
      exact ⟨front, by rw [← whole, List.append_assoc]; rfl⟩
    refine ⟨wf.of_attend attended, draws.kept.trans longer,
      List.forall_mem_append.mpr ⟨fun o mem shown published => ?_,
        List.forall_mem_singleton.mpr fun shown published => ?_⟩⟩
    · rw [storyBytes_append]
      exact (earlier o mem shown published).trans (List.prefix_append _ _).isInfix
    · exact ((draws.published shown (Option.mem_toList.mp published)).trans longer).isInfix
  exact held.2.2 o told shown published

end Receiver

end Dmx512
