import Dmx512.Proofs.Act.Pairs
import Dmx512.Proofs.Reception.Progress
import Dmx512.Proofs.Reception.Times

/-!
# A receiver whose clock is ahead

Of two receivers one is ahead by an offset if it is the other with every instant that it still
refers to moved by that offset. Intervals and counts are the same. An instant that was never
taken, such as the time of the latest break before there was one, may have stayed where it was:
it is not referred to before it is taken anew. When the latest RDM frame ended is not said here.

Receivers of which one is ahead respond alike to what they hear, if the one hears it later by the
offset, and publish the same frames.
-/

namespace Dmx512

open Standard

namespace Receiver

structure Ahead (offset : Micros) (r r' : Receiver) : Prop where
  retimed : r' = r.retimed r'.times
  breakTime : r'.breakTime = r.breakTime + offset ∨
    r'.breakTime = r.breakTime ∧ r.state ≠ .lineBreak
  lastDmxBreak : r'.lastDmxBreak = r.lastDmxBreak.map (· + offset)
  breakToBreak : r'.breakToBreak = r.breakToBreak
  slotTime : r'.slotTime = r.slotTime + offset ∨ r'.slotTime = r.slotTime ∧ r.state ≠ .dmxData
  slotSpacing : r'.slotSpacing = r.slotSpacing
  deadline : r'.deadline = r.deadline.map (· + offset)
  counters : r'.counters =
    { r.counters with rdmReceiveEnd := r'.counters.rdmReceiveEnd }

variable {offset : Micros} {r r' : Receiver}

/-- Two responses agree: the receiver of the one is ahead, and both publish the same. -/
def Keep (offset : Micros) (served served' : Receiver × Option Frame) : Prop :=
  served'.2 = served.2 ∧ Ahead offset served.1 served'.1

namespace Ahead

theorem state (h : r.Ahead offset r') : r'.state = r.state := by
  rw [h.retimed]
  rfl

/-- Only the end of an RDM frame tells apart receivers of which none is ahead. -/
theorem eq_of_zero (h : r.Ahead 0 r')
    (ending : r'.counters.rdmReceiveEnd = r.counters.rdmReceiveEnd) : r' = r := by
  have still (time : Option Micros) : time.map (· + 0) = time := by cases time <;> simp
  have times : r'.times = r.times := by
    simp only [Receiver.times, Times.mk.injEq]
    refine ⟨?_, h.lastDmxBreak.trans (still _), h.breakToBreak, ?_, h.slotSpacing,
      h.deadline.trans (still _), ?_⟩
    · exact h.breakTime.elim (fun moved => moved.trans (UInt32.add_zero _)) And.left
    · exact h.slotTime.elim (fun moved => moved.trans (UInt32.add_zero _)) And.left
    · rw [h.counters, ending]
  rw [h.retimed, times, retimed_times]

theorem dropFrame (h : r.Ahead offset r') : r.dropFrame.Ahead offset r'.dropFrame where
  retimed := by
    rw [h.retimed]
    rfl
  breakTime := h.breakTime.imp_right fun same => ⟨same.1, by simp [Receiver.dropFrame]⟩
  lastDmxBreak := h.lastDmxBreak
  breakToBreak := h.breakToBreak
  slotTime := h.slotTime.imp_right fun same => ⟨same.1, by simp [Receiver.dropFrame]⟩
  slotSpacing := h.slotSpacing
  deadline := rfl
  counters := h.counters

theorem reset (h : r.Ahead offset r') : r.reset.Ahead offset r'.reset :=
  { h.dropFrame with
    retimed := by
      rw [h.retimed]
      rfl
    lastDmxBreak := rfl }

theorem publishDmx (h : r.Ahead offset r') :
    Checked.Both (Keep offset) r.publishDmx r'.publishDmx := by
  have front : r'.dmxBuffer.front r'.index = r.dmxBuffer.front r.index := by
    rw [h.retimed]
    rfl
  rw [Receiver.publishDmx, Receiver.publishDmx, front]
  cases r.dmxBuffer.front r.index with
  | error => rfl
  | ok bytes =>
      cases bytes with
      | nil => rfl
      | cons startCode slots =>
          refine ⟨?_, ?_⟩
          · change some (Frame.dmx _) = some (Frame.dmx _)
            rw [h.slotSpacing, h.breakToBreak]
          · exact { h.dropFrame with
              retimed := by rw [h.retimed]; rfl
              counters := by rw [h.counters] }

theorem overdue (h : r.Ahead offset r') (now : Micros) :
    r'.overdue (now + offset) = r.overdue now := by
  rw [Receiver.overdue, Receiver.overdue, h.state, h.deadline]
  cases r.state <;> cases r.deadline <;> simp [isDue_add_right]

theorem onTimeout (h : r.Ahead offset r') (now : Micros) :
    Checked.Both (Keep offset) (r.onTimeout now) (r'.onTimeout (now + offset)) := by
  rw [Receiver.onTimeout, Receiver.onTimeout, h.overdue]
  exact .ite Iff.rfl (fun _ => h.publishDmx) fun _ => ⟨rfl, h⟩

theorem onBreak (h : r.Ahead offset r') (now : Micros) :
    Checked.Both (Keep offset) (r.onBreak now) (r'.onBreak (now + offset)) := by
  rw [Receiver.onBreak, Receiver.onBreak]
  apply (h.onTimeout now).bind
  rintro ⟨t, frame⟩ ⟨t', frame'⟩ ⟨shown, ahead⟩
  have ahead : t.Ahead offset t' := ahead
  refine ⟨shown, ?_⟩
  exact {
    retimed := by rw [ahead.retimed]; rfl
    breakTime := .inl rfl
    lastDmxBreak := ahead.lastDmxBreak
    breakToBreak := ahead.breakToBreak
    slotTime := ahead.slotTime.imp_right fun same => ⟨same.1, by simp⟩
    slotSpacing := ahead.slotSpacing
    deadline := rfl
    counters := ahead.counters }

theorem onStartCode (h : r.Ahead offset r') (awaited : r.state = .lineBreak) (code : UInt8)
    (now : Micros) :
    Checked.Both (Ahead offset) (r.onStartCode code now) (r'.onStartCode code (now + offset)) := by
  have began : r'.breakTime = r.breakTime + offset :=
    h.breakTime.resolve_right fun same => same.2 awaited
  have interval : r'.lastDmxBreak.map (elapsed r'.breakTime) =
      r.lastDmxBreak.map (elapsed r.breakTime) := by
    rw [began, h.lastDmxBreak, Option.map_map]
    congr 1
    funext since
    exact elapsed_add_right _ _ _
  have dmxBuffer : r'.dmxBuffer = r.dmxBuffer := by rw [h.retimed]; rfl
  have rdmBuffer : r'.rdmBuffer = r.rdmBuffer := by rw [h.retimed]; rfl
  rw [Receiver.onStartCode, Receiver.onStartCode, dmxBuffer, rdmBuffer]
  refine .ite Iff.rfl (fun _ => ?_) fun _ => .ite Iff.rfl (fun _ => ?_) fun _ => ?_
  · apply (Checked.Both.same (R := Eq) (fun _ => rfl) _).bind
    rintro buffer _ rfl
    exact {
      retimed := by rw [h.retimed]; rfl
      breakTime := .inl began
      lastDmxBreak := congrArg some began
      breakToBreak := congrArg (Option.getD · 0) interval
      slotTime := .inl rfl
      slotSpacing := h.slotSpacing
      deadline := h.deadline
      counters := by
        simp only [interval]
        rw [h.counters] }
  · apply (Checked.Both.same (R := Eq) (fun _ => rfl) _).bind
    rintro buffer _ rfl
    exact {
      retimed := by rw [h.retimed]; rfl
      breakTime := .inl began
      lastDmxBreak := rfl
      breakToBreak := h.breakToBreak
      slotTime := h.slotTime.imp_right fun same => ⟨same.1, by simp⟩
      slotSpacing := h.slotSpacing
      deadline := h.deadline
      counters := by rw [h.counters] }
  · exact {
      retimed := by rw [h.retimed]; rfl
      breakTime := .inl began
      lastDmxBreak := rfl
      breakToBreak := h.breakToBreak
      slotTime := h.slotTime.imp_right fun same => ⟨same.1, by simp⟩
      slotSpacing := h.slotSpacing
      deadline := h.deadline
      counters := h.counters }

theorem onSlot (h : r.Ahead offset r') (slots : r.state = .dmxData) (byte : UInt8) (now : Micros) :
    Checked.Both (Keep offset) (r.onSlot byte now) (r'.onSlot byte (now + offset)) := by
  have since : r'.slotTime = r.slotTime + offset :=
    h.slotTime.resolve_right fun same => same.2 slots
  have spacing : elapsed (now + offset) r'.slotTime = elapsed now r.slotTime := by
    rw [since, elapsed_add_right]
  have put : r'.dmxBuffer.put r'.index byte = r.dmxBuffer.put r.index byte := by
    rw [h.retimed]
    rfl
  rw [Receiver.onSlot, Receiver.onSlot, put, spacing]
  apply (Checked.Both.same (R := Eq) (fun _ => rfl) _).bind
  rintro buffer _ rfl
  let spaced : Micros := max (elapsed now r.slotTime) spacingFloor
  have slot : { r with
        dmxBuffer := buffer, index := r.index + 1, slotTime := now, slotSpacing := spaced
        counters := { r.counters with slotToSlot := spaced } }.Ahead offset { r' with
        dmxBuffer := buffer, index := r'.index + 1, slotTime := now + offset, slotSpacing := spaced
        counters := { r'.counters with slotToSlot := spaced } } := {
    retimed := by rw [h.retimed]; rfl
    breakTime := h.breakTime
    lastDmxBreak := h.lastDmxBreak
    breakToBreak := h.breakToBreak
    slotTime := .inl rfl
    slotSpacing := rfl
    deadline := h.deadline
    counters := by rw [h.counters] }
  have index : r'.index = r.index := by rw [h.retimed]; rfl
  refine .ite (by rw [index]) (fun _ => slot.publishDmx) fun _ => ⟨rfl, ?_⟩
  have later : now + offset + spaced + timeoutGuard = now + spaced + timeoutGuard + offset := by
    grind
  exact { slot with deadline := congrArg some later, retimed := by rw [h.retimed]; rfl }

/-- Any other byte is served without a look at the times. -/
theorem onOther (h : r.Ahead offset r') (wf : r.WellFormed) (behind : r.state ≠ .lineBreak)
    (outside : r.state ≠ .dmxData) (byte : UInt8) (now : Micros) :
    Checked.Both (Keep offset) (r.onByte byte now) (r'.onByte byte (now + offset)) := by
  obtain ⟨t, frame, ended, _⟩ := wf.onByte byte now
  have proceeds := wf.proceeds behind ended
  have times := onByte_times r byte now behind outside ended
  have slots : t.state ≠ .dmxData := fun slots => outside (proceeds.slots slots)
  rw [h.retimed, onByte_retimed r r'.times byte now behind outside (now + offset), ended]
  refine ⟨rfl, ?_⟩
  exact {
    retimed := rfl
    breakTime := by
      rw [proceeds.breakTime]
      exact h.breakTime.imp_right fun same => ⟨same.1, proceeds.behind⟩
    lastDmxBreak := by
      rw [proceeds.lastDmxBreak]
      exact h.lastDmxBreak
    breakToBreak := by
      rw [proceeds.breakToBreak]
      exact h.breakToBreak
    slotTime := by
      have same : t.slotTime = r.slotTime := congrArg Times.slotTime times
      rw [same]
      exact h.slotTime.imp_right fun same => ⟨same.1, slots⟩
    slotSpacing := by
      have same : t.slotSpacing = r.slotSpacing := congrArg Times.slotSpacing times
      rw [same]
      exact h.slotSpacing
    deadline := by
      have same : t.deadline = r.deadline := congrArg Times.deadline times
      rw [same]
      exact h.deadline
    counters := by
      have same : t.counters = (r.times.ended frame now).counters := congrArg Times.counters times
      rw [same]
      exact congrArg (fun counters : ReceiveCounters => { counters with
        rdmReceiveEnd := (r'.times.ended frame (now + offset)).counters.rdmReceiveEnd })
        h.counters }

/-- Receivers of which one is ahead respond alike, if it hears later by the offset. -/
theorem hear (h : r.Ahead offset r') (wf : r.WellFormed) (signal : Signal) (now : Micros) :
    Checked.Both (Keep offset) (r.hear signal now) (r'.hear signal (now + offset)) := by
  cases signal with
  | lineBreak => exact h.onBreak now
  | damaged => exact ⟨rfl, h.dropFrame⟩
  | byte value =>
      by_cases awaited : r.state = .lineBreak
      · rw [Receiver.hear, Receiver.hear, onByte, onByte, h.state, awaited]
        apply (h.onStartCode awaited value now).bind
        intro t t' ahead
        exact ⟨rfl, ahead⟩
      · by_cases slots : r.state = .dmxData
        · rw [Receiver.hear, Receiver.hear, onByte, onByte, h.state, slots]
          exact h.onSlot slots value now
        · exact h.onOther wf awaited slots value now

end Ahead

end Receiver

end Dmx512
