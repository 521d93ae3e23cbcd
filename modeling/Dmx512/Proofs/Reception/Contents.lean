import Dmx512.Proofs.Reception.Story
import Dmx512.Proofs.Reception.Times

/-!
# What the bytes alone decide

Time decides when a DMX frame ends early, and nothing else that is received. Two receivers have
the same contents if they differ at most in their times: they expect the same, hold the same
bytes and have counted the same packets. A signal leaves them so, whenever it comes to either
of them, and from both it draws the same frames without their timing.

That leaves out frames that ended early: a break publishes those on one side only, if the slots
before it were overdue there.
-/

namespace Dmx512

open Standard

/-- A frame without its timing, if its last byte ended it: an RDM frame, or a DMX frame with all
its slots. -/
def Frame.untimed? : Frame → Option Frame
  | .rdm frame => some (.rdm frame)
  | .dmx frame =>
    if frame.slots.length = maxSlots then
      some (.dmx { frame with slotToSlot := 0, breakToBreak := 0 })
    else
      none

theorem filterMap_storyFrames {o : Occasion} {frame : Option Frame} {rest : List Occasion}
    (published : o.published = frame.toList) :
    (storyFrames (o :: rest)).filterMap Frame.untimed? =
      (frame.bind Frame.untimed?).toList ++ (storyFrames rest).filterMap Frame.untimed? := by
  rw [storyFrames_cons, List.filterMap_append, published]
  congr 1
  cases frame with
  | none => rfl
  | some frame => cases shown : frame.untimed? <;> simp [shown]

namespace Receiver

/-- Two receivers have the same contents: whatever they know of time, they expect the same, hold
the same bytes and have counted the same packets. -/
structure SameContents (r r' : Receiver) : Prop where
  retimed : r' = r.retimed r'.times
  dmxPackets : r'.counters.dmxPackets = r.counters.dmxPackets
  rdmPackets : r'.counters.rdmPackets = r.counters.rdmPackets

namespace SameContents

variable {r r' r'' : Receiver} {times : Times}

theorem of_retimed (dmxPackets : times.counters.dmxPackets = r.counters.dmxPackets)
    (rdmPackets : times.counters.rdmPackets = r.counters.rdmPackets) :
    r.SameContents (r.retimed times) :=
  ⟨rfl, dmxPackets, rdmPackets⟩

theorem refl (r : Receiver) : r.SameContents r := ⟨rfl, rfl, rfl⟩

theorem symm (h : r.SameContents r') : r'.SameContents r where
  retimed := by rw [h.retimed, retimed_retimed, retimed_times]
  dmxPackets := h.dmxPackets.symm
  rdmPackets := h.rdmPackets.symm

theorem trans (h : r.SameContents r') (h' : r'.SameContents r'') : r.SameContents r'' where
  retimed := by
    have first := h.retimed
    rw [h'.retimed, first]
    rfl
  dmxPackets := h'.dmxPackets.trans h.dmxPackets
  rdmPackets := h'.rdmPackets.trans h.rdmPackets

theorem state (h : r.SameContents r') : r'.state = r.state := by
  rw [h.retimed]
  rfl

end SameContents

/-- Two responses agree: they leave receivers of the same contents, and what they publish is the
same apart from its timing. -/
def Coincide (first second : Checked (Receiver × Option Frame)) : Prop :=
  ∃ t frame t' frame', first = .ok (t, frame) ∧ second = .ok (t', frame') ∧
    t.SameContents t' ∧ frame.bind Frame.untimed? = frame'.bind Frame.untimed?

variable {r r' t t' : Receiver} {now now' : Micros}

/-- A break ends at most a DMX frame that lacks slots. -/
theorem WellFormed.onBreak_contents (h : r.WellFormed) (now : Micros) :
    ∃ t frame, r.onBreak now = .ok (t, frame) ∧
      { r with state := .lineBreak }.SameContents t ∧ frame.bind Frame.untimed? = none := by
  by_cases due : r.overdue now = true
  · have slots : r.state = .dmxData := by
      rw [overdue] at due
      split at due
      · assumption
      · contradiction
    obtain ⟨low, high, code⟩ := h.holds slots
    have short : r.dmxFrame.slots.length ≠ maxSlots := by
      have bound : r.index ≤ dmxCapacity := Nat.le_succ_of_le high
      have length : r.dmxFrame.slots.length = r.index - 1 := by
        rw [dmxFrame, List.length_tail, dmxBytes, Buffer.length_take r.dmxBuffer bound]
      rw [length]
      omega
    rw [Receiver.onBreak, Receiver.onTimeout, if_pos due,
      publishDmx_eq low (Nat.le_succ_of_le high) code]
    exact ⟨_, _, rfl, ⟨rfl, rfl, rfl⟩, if_neg short⟩
  · rw [Receiver.onBreak, Receiver.onTimeout, if_neg due]
    exact ⟨_, _, rfl, ⟨rfl, rfl, rfl⟩, rfl⟩

namespace SameContents

theorem onStartCode (h : r.SameContents r') (code : UInt8) (now now' : Micros) :
    ∃ t t', r.onStartCode code now = .ok t ∧ r'.onStartCode code now' = .ok t' ∧
      t.SameContents t' := by
  rw [h.retimed]
  rw [Receiver.onStartCode, Receiver.onStartCode]
  by_cases dmx : code = dmxStartCode
  · rw [if_pos dmx, if_pos dmx, Buffer.put_of_lt _ _ (by decide), Buffer.put_of_lt _ _ (by decide)]
    exact ⟨_, _, rfl, rfl, rfl, congrArg (· + 1) h.dmxPackets, h.rdmPackets⟩
  · rw [if_neg dmx, if_neg dmx]
    by_cases rdm : code = rdmStartCode
    · rw [if_pos rdm, if_pos rdm, Buffer.put_of_lt _ _ (by decide),
        Buffer.put_of_lt _ _ (by decide)]
      exact ⟨_, _, rfl, rfl, rfl, h.dmxPackets, congrArg (· + 1) h.rdmPackets⟩
    · rw [if_neg rdm, if_neg rdm]
      exact ⟨_, _, rfl, rfl, rfl, h.dmxPackets, h.rdmPackets⟩

theorem onSlot (h : r.SameContents r') (wf : r.WellFormed) (slots : r.state = .dmxData)
    (byte : UInt8) (now now' : Micros) :
    Coincide (r.onSlot byte now) (r'.onSlot byte now') := by
  obtain ⟨low, high, code⟩ := wf.holds slots
  have room : r.index < dmxCapacity := Nat.lt_succ_of_le high
  have index : (r.retimed r'.times).index = r.index := rfl
  rw [h.retimed, onSlot_eq byte now room, onSlot_eq byte now' (index ▸ room)]
  by_cases last : r.index + 1 = dmxCapacity
  · have first := withSlot_startCode byte now room low code
    have first' := withSlot_startCode (r := r.retimed r'.times) byte now' room low code
    rw [if_pos last, if_pos (index ▸ last),
      publishDmx_eq (Nat.le_add_left 1 r.index) (Nat.succ_le_of_lt room) first,
      publishDmx_eq (Nat.le_add_left 1 r.index) (Nat.succ_le_of_lt room) first']
    exact ⟨_, _, _, _, rfl, rfl, ⟨rfl, h.dmxPackets, h.rdmPackets⟩, rfl⟩
  · rw [if_neg last, if_neg (index ▸ last)]
    exact ⟨_, _, _, _, rfl, rfl, ⟨rfl, h.dmxPackets, h.rdmPackets⟩, rfl⟩

theorem onByte (h : r.SameContents r') (wf : r.WellFormed) (byte : UInt8) (now now' : Micros) :
    Coincide (r.onByte byte now) (r'.onByte byte now') := by
  by_cases awaited : r.state = .lineBreak
  · obtain ⟨t, t', began, began', same⟩ := h.onStartCode byte now now'
    rw [Receiver.onByte, Receiver.onByte, h.state, awaited]
    dsimp only
    rw [began, began']
    exact ⟨_, _, _, _, rfl, rfl, same, rfl⟩
  · by_cases slots : r.state = .dmxData
    · rw [Receiver.onByte, Receiver.onByte, h.state, slots]
      exact h.onSlot wf slots byte now now'
    · obtain ⟨t, frame, ended, _⟩ := wf.onByte byte now
      -- Such a byte counts no packet.
      have counters := congrArg Times.counters (onByte_times r byte now awaited slots ended)
      rw [h.retimed, onByte_retimed r r'.times byte now awaited slots now', ended]
      refine ⟨_, _, _, _, rfl, rfl, .of_retimed ?_ ?_, rfl⟩
      · exact h.dmxPackets.trans (congrArg ReceiveCounters.dmxPackets counters).symm
      · exact h.rdmPackets.trans (congrArg ReceiveCounters.rdmPackets counters).symm

/-- Receivers of the same contents respond to a signal alike, whenever it comes to either. -/
theorem hear (h : r.SameContents r') (wf : r.WellFormed) (wf' : r'.WellFormed) (signal : Signal)
    (now now' : Micros) : Coincide (r.hear signal now) (r'.hear signal now') := by
  cases signal with
  | lineBreak =>
      obtain ⟨t, frame, ended, same, none⟩ := wf.onBreak_contents now
      obtain ⟨t', frame', ended', same', none'⟩ := wf'.onBreak_contents now'
      refine ⟨t, frame, t', frame', ended, ended', ?_, none.trans none'.symm⟩
      have waits : { r with state := .lineBreak }.SameContents { r' with state := .lineBreak } := by
        rw [h.retimed]
        exact ⟨rfl, h.dmxPackets, h.rdmPackets⟩
      exact (same.symm.trans waits).trans same'
  | byte value => exact h.onByte wf value now now'
  | damaged =>
      refine ⟨_, _, _, _, rfl, rfl, ?_, rfl⟩
      rw [h.retimed]
      exact ⟨rfl, h.dmxPackets, h.rdmPackets⟩

/-- Receivers of the same contents that hear the same signals, at whatever times, publish the same
apart from its timing, and have the same contents at the end. -/
theorem follows {story story' : List Occasion} (h : r.SameContents r') (wf : r.WellFormed)
    (wf' : r'.WellFormed) (follows : Follows r story t) (follows' : Follows r' story' t')
    (same : story.map Occasion.cause = story'.map Occasion.cause)
    (signals : ∀ o ∈ story, o.cause ≠ .timeout) :
    t.SameContents t' ∧ (storyFrames story).filterMap Frame.untimed? =
      (storyFrames story').filterMap Frame.untimed? := by
  induction follows generalizing r' story' with
  | nil =>
      have none : story' = [] := List.map_eq_nil_iff.mp same.symm
      subst none
      cases follows'
      exact ⟨h, rfl⟩
  | @cons r m t o rest frame attended published later ih =>
      cases follows' with
      | nil => cases same
      | @cons _ m' _ o' rest' frame' attended' published' later' =>
          obtain ⟨cause, causes⟩ := List.cons.inj same
          obtain ⟨signal, others⟩ := List.forall_mem_cons.mp signals
          have next : m.SameContents m' ∧
              frame.bind Frame.untimed? = frame'.bind Frame.untimed? := by
            cases told : o.cause with
            | timeout => exact absurd told signal
            | signal signal =>
                rw [told] at attended
                rw [← cause, told] at attended'
                obtain ⟨_, _, _, _, ended, ended', goesOn, shown⟩ :=
                  h.hear wf wf' signal o.time o'.time
                cases attended.symm.trans ended
                cases attended'.symm.trans ended'
                exact ⟨goesOn, shown⟩
          obtain ⟨goesOn, shown⟩ := next
          obtain ⟨contents, frames⟩ :=
            ih goesOn (wf.of_attend attended) (wf'.of_attend attended') later' causes others
          refine ⟨contents, ?_⟩
          rw [filterMap_storyFrames published, filterMap_storyFrames published', shown, frames]

end SameContents

end Receiver

end Dmx512
