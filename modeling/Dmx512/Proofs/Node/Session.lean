import Dmx512.Proofs.Link.Receiving
import Dmx512.Proofs.Node.Reception
import Dmx512.Proofs.Reception.Intervals

/-!
# What the session of a node tells

The journal of a reachable node tells what its receiver has lived through since it began
anew. So the interval that a published frame carries can be told from the journal: it goes
back to the packet before, if that was one of dimmer data. Where the preceding break began
no packet, that is not the interval between two breaks.
-/

namespace Dmx512.Node

open Standard

variable {H : Type} [Hardware H] {d r : Nat} {s : Node H d r}

/-- The receiver of a node has lived through the session that its journal tells, and what
waits to be read was admitted by it. -/
theorem Reachable.recounts (reachable : s.Reachable) : s.link.scene.Recounts := by
  obtain ⟨hardware, steps⟩ := reachable.steps
  have empty : (powerUp hardware : Node H d r).link.scene.rdmStore.unread = [] :=
    Frame.Store.unread_empty _
  have start : (powerUp hardware : Node H d r).link.scene.Recounts := by
    refine ⟨⟨{}, ⟨rfl, rfl, rfl⟩, .nil _⟩, trivial, ?_⟩
    rw [empty]
    exact nofun
  exact steps.recounts start

/-- The interval of a DMX frame. Whenever a node published a DMX frame, the frame came behind
a break, unbroken, with the code of dimmer data. It carries the interval from the packet
before to that break, if that was a packet of dimmer data, and 0 otherwise. So it is 0 at the
first break of a session, and where the preceding break had a start code, it is the interval
between these two breaks if that was the code of dimmer data, and 0 if it was another. -/
theorem Reachable.break_interval (reachable : s.Reachable) {later earlier : Journal}
    {time : Micros} {frame : DmxFrame}
    (told : s.link.line.journal = later ++ ⟨time, .published (.dmx frame)⟩ :: earlier) :
    ∃ front own behind o,
      Journal.session (⟨time, .published (.dmx frame)⟩ :: earlier) =
        front ++ own :: (behind ++ [o]) ∧
      .dmx frame ∈ o.published ∧ own.IsBreak ∧ (∀ p ∈ behind, ¬ p.IsBreak) ∧
      startCode? behind = some dmxStartCode ∧
      frame.breakToBreak = breakInterval (storyPackets none front) own.time ∧
      ((∀ p ∈ front, ¬ p.IsBreak) → frame.breakToBreak = 0) ∧
      ∀ before first gap code, front = before ++ first :: gap → first.IsBreak →
        (∀ p ∈ gap, ¬ p.IsBreak) → startCode? gap = some code →
        frame.breakToBreak = if code = dmxStartCode then elapsed own.time first.time else 0 := by
  have attested : s.link.line.journal.Attested := reachable.recounts.attested
  rw [told] at attested
  obtain ⟨r, t, story, o, fresh, follows, shown, session⟩ := attested.split
  obtain ⟨front, own, behind, rfl, isBreak, unbroken, code, interval⟩ :=
    fresh.interval_eq follows shown
  refine ⟨front, own, behind, o, ?_, shown, isBreak, unbroken, code, interval, ?_, ?_⟩
  · rw [session, List.append_assoc, List.cons_append]
  · intro none_before
    rw [interval, storyPackets_unbroken none_before]
    rfl
  · rintro before first gap code rfl isBreak' unbroken' begun
    rw [interval, breakInterval_preceding before isBreak' unbroken' begun]

/-- Two packets of dimmer data, the second one 1000 us behind the first. -/
def packetsRun : List (Action Bench) :=
  benchStart ++ earlierRun ++ [.disturb (Bench.advance 1000)] ++ slotsRun

theorem Reachable.break_interval_packets :
    ∃ (s : Node Bench 0 0) (later earlier : Journal) (frame : DmxFrame), s.Reachable ∧
      s.link.line.journal = later ++ ⟨1156, .published (.dmx frame)⟩ :: earlier ∧
      frame.breakToBreak = 1000 ∧
      ∃ front own behind o, Journal.session (⟨1156, .published (.dmx frame)⟩ :: earlier) =
          front ++ own :: (behind ++ [o]) ∧
        frame.breakToBreak = breakInterval (storyPackets none front) own.time := by
  let frame : DmxFrame := { slots := [0x07, 0x09], slotToSlot := 50, breakToBreak := 1000 }
  have carried : (powerUp {} : Node Bench 0 0).Ends packetsRun fun s =>
      s.link.line.journal = s.link.line.journal.take 1 ++
        ⟨1156, .published (.dmx frame)⟩ :: s.link.line.journal.drop 2 := by
    decide +kernel
  obtain ⟨s, ran, told⟩ := carried
  have reachable : s.Reachable := ⟨{}, packetsRun, ran⟩
  obtain ⟨front, own, behind, o, session, _, _, _, _, interval, _⟩ :=
    Reachable.break_interval reachable told
  exact ⟨s, _, _, frame, reachable, told, rfl, front, own, behind, o, session, interval⟩

/-- The start code of dimmer data, a break 1000 us later without one, and 1000 us behind that
a packet of dimmer data, which a timeout ends. -/
def skippedRun : List (Action Bench) :=
  benchStart ++ [.disturb Bench.receiveBreak, .disturb (Bench.receive [0x00] 0x01),
    .perform (.interrupt .uart), .disturb (Bench.receiveBreak ∘ Bench.advance 1000),
    .perform (.interrupt .uart), .disturb (Bench.receiveBreak ∘ Bench.advance 1000),
    .disturb (Bench.receive [0x00, 0x07] 0x01), .perform (.interrupt .uart),
    .disturb (Bench.advance 100), .perform (.interrupt .receiveTimeout)]

/-- Where no start code came behind the preceding break, the frame carries the interval from
the break before that one, and not 0. -/
theorem break_interval_spans_skipped :
    ∃ (s : Node Bench 0 0) (frame : DmxFrame), s.Reachable ∧
      s.link.line.journal.session =
        [⟨.signal .lineBreak, 0, []⟩, ⟨.signal (.byte dmxStartCode), 0, []⟩] ++
          [⟨.signal .lineBreak, 1000, []⟩] ++
          [⟨.signal .lineBreak, 2000, []⟩, ⟨.signal (.byte dmxStartCode), 2000, []⟩,
            ⟨.signal (.byte 0x07), 2000, []⟩, ⟨.timeout, 2100, [.dmx frame]⟩] ∧
      startCode? [] ≠ some dmxStartCode ∧ frame.breakToBreak = 2000 ∧
      frame.breakToBreak ≠ 0 := by
  let frame : DmxFrame := { slots := [0x07], slotToSlot := 44, breakToBreak := 2000 }
  have carried : (powerUp {} : Node Bench 0 0).Ends skippedRun fun s =>
      s.link.line.journal.session =
        [⟨.signal .lineBreak, 0, []⟩, ⟨.signal (.byte dmxStartCode), 0, []⟩] ++
          [⟨.signal .lineBreak, 1000, []⟩] ++
          [⟨.signal .lineBreak, 2000, []⟩, ⟨.signal (.byte dmxStartCode), 2000, []⟩,
            ⟨.signal (.byte 0x07), 2000, []⟩, ⟨.timeout, 2100, [.dmx frame]⟩] := by
    decide +kernel
  obtain ⟨s, ran, told⟩ := carried
  exact ⟨s, frame, ⟨{}, skippedRun, ran⟩, told, nofun, rfl, by decide⟩

end Dmx512.Node
