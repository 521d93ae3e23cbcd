import Dmx512.Proofs.Link.TimingOut
import Dmx512.Proofs.Node.Bursts

/-!
# A break and the receive alarm

The receive alarm of a truncated frame and the break of the next one may come due together. Both
interrupts find the frame overdue, and both set the alarm anew. Which of them is served first
makes no difference: the one publishes the frame and the other finds none.
-/

namespace Dmx512.Node

open Act Link Standard

variable {H : Type} [Hardware H] {d r : Nat} {s t : Node H d r} {clockwork : Clockwork H}
variable {signals : List Signal} {first second : Interrupt}

/-- An interrupt that concerns reception takes in what it hands to the receiver. -/
theorem Sound.attends (h : s.Sound) {i : Intake d r} (taken : s.link.TookIn clockwork i signals)
    {interrupt : Interrupt} (concerns : interrupt ≠ .transmitTimer)
    (acted : s.act (.perform (.interrupt interrupt)) = .ok t) :
    ∃ i', i.attendAll (heardBy signals interrupt) = .ok i' ∧
      t.link.TookIn clockwork i' (leftBy signals interrupt) := by
  obtain ⟨_, ended⟩ := perform_of_act acted
  have serves : WP (fun _ => True) (perform (.interrupt interrupt)) (fun _ t =>
      ∃ i', i.attendAll (heardBy signals interrupt) = .ok i' ∧
        t.link.TookIn clockwork i' (leftBy signals interrupt)) s := by
    rw [perform, WP.bind_iff, wp_onLink]
    exact taken.attends h.free concerns
  exact serves.elim ended

/-- Two interrupts that concern reception, the one behind the other, end and take in what the one
and then the other hands to the receiver. -/
theorem Sound.attends_both (h : s.Sound) (clockwork : Clockwork H)
    (concerns : first ≠ .transmitTimer) (concerns' : second ≠ .transmitTimer) :
    ∃ t, s.run [.perform (.interrupt first), .perform (.interrupt second)] = .ok t ∧
      Moves (· = .interrupt) s.link t.link ∧
      (s.link.intake clockwork).attendAll
        (heardBy (clockwork.pending s.link.line.hardware) first ++
          heardBy (leftBy (clockwork.pending s.link.line.hardware) first) second) =
        .ok (t.link.intake clockwork) := by
  have listens (interrupt : Interrupt) :
      (Action.perform (.interrupt interrupt) : Action H).Listens := trivial
  obtain ⟨m, acted, moves, _⟩ := h.listens_act (listens first)
  have sound : m.Sound := (h.act acted).sound h
  obtain ⟨t, acted', moves', _⟩ := sound.listens_act (listens second)
  have pending : s.link.TookIn clockwork _ _ := ⟨rfl, rfl⟩
  obtain ⟨i, attended, taken⟩ := h.attends pending concerns acted
  obtain ⟨i', attended', taken'⟩ := sound.attends taken concerns' acted'
  refine ⟨t, ?_, moves.trans moves', ?_⟩
  · rw [Node.run, acted]
    exact congrArg (· >>= _) acted'
  · rw [Intake.attendAll_append attended, attended', taken'.intake]

/-- Where all that interrupts took in is a story, its frames are what was published. -/
theorem publications_of_live {story : List Occasion} {receiver : Receiver}
    (moves : Moves (· = .interrupt) s.link t.link)
    (lived : t.link.intake clockwork = (s.link.intake clockwork).live story receiver) :
    t.link.line.journal.publications =
      s.link.line.journal.publications ++ storyFrames story := by
  obtain ⟨told, hears, publishes⟩ := moves.steps.tells
  have occasions : t.link.line.journal.occasions = s.link.line.journal.occasions ++ story :=
    congrArg Intake.occasions lived
  have same : told = story := List.append_cancel_left (hears.occasions.symm.trans occasions)
  exact same ▸ publishes.publications

/-- A break and the receive alarm commute. Where the receive queue of a node begins with a break
and the clock stands still, the interrupt of the serial interface and the receive alarm may be
served in either order: both runs end, and lead to the same publications in the same order, the
same stores and counters, the same receiver and the same receive alarm. Either way a frame that is
overdue is published once, before anything else, and no other DMX frame is. -/
theorem Reachable.break_timeout_commute (reachable : s.Reachable) (clockwork : Clockwork H)
    {rest : List Signal}
    (begins : clockwork.pending s.link.line.hardware = .lineBreak :: rest)
    (still : ∀ n, clockwork.readings s.link.line.hardware n = s.link.line.now) :
    ∃ t u,
      s.run [.perform (.interrupt .uart), .perform (.interrupt .receiveTimeout)] = .ok t ∧
      s.run [.perform (.interrupt .receiveTimeout), .perform (.interrupt .uart)] = .ok u ∧
      t.link.line.journal.publications = u.link.line.journal.publications ∧
      t.link.dmxStore = u.link.dmxStore ∧ t.link.rdmStore = u.link.rdmStore ∧
      t.link.counters = u.link.counters ∧
      t.link.engine.receiver = u.link.engine.receiver ∧
      t.link.line.journal.alarm? .receiveTimeout = u.link.line.journal.alarm? .receiveTimeout ∧
      ∃ frames, t.link.line.journal.publications = s.link.line.journal.publications ++
          ((if s.link.engine.receiver.overdue s.link.line.now then
            [.dmx s.link.engine.receiver.dmxFrame] else []) ++ frames) ∧
        ∀ frame, .dmx frame ∉ frames := by
  have sound := reachable.sound
  -- Both interrupts hand the receiver the break, what the first takes behind it, and a timeout.
  obtain ⟨t, ran, moves, attended⟩ := sound.attends_both clockwork
    (show Interrupt.uart ≠ .transmitTimer by decide)
    (show Interrupt.receiveTimeout ≠ .transmitTimer by decide)
  obtain ⟨u, ran', moves', attended'⟩ := sound.attends_both clockwork
    (show Interrupt.receiveTimeout ≠ .transmitTimer by decide)
    (show Interrupt.uart ≠ .transmitTimer by decide)
  rw [begins] at attended attended'
  have clock : (s.link.intake clockwork).Still s.link.line.now := funext still
  have short : (rest.take 63).length ≤ maxSlots :=
    (List.length_take_le 63 rest).trans (by decide)
  obtain ⟨story, story', receiver, frames, taken, taken', shown, shown', silent⟩ :=
    Intake.break_timeOut_commute clock sound.sound.receiver sound.wired.deaf short
  have lived := Except.ok.inj (attended.symm.trans taken)
  have lived' := Except.ok.inj (attended'.symm.trans taken')
  have agree : { t.link.intake clockwork with occasions := [] } =
      { u.link.intake clockwork with occasions := [] } := by
    rw [lived, lived', Intake.live, Intake.live, shown, shown']
  have same : t.link.engine.receiver = u.link.engine.receiver := congrArg Intake.receiver agree
  have overruns : t.link.engine.transmitter.overruns = u.link.engine.transmitter.overruns :=
    congrArg Intake.overruns agree
  have published := publications_of_live moves lived
  have published' := publications_of_live moves' lived'
  refine ⟨t, u, ran, ran', ?_, congrArg Intake.dmxStore agree, congrArg Intake.rdmStore agree, ?_,
    same, ?_, frames, ?_, silent⟩
  · rw [published, published', shown, shown']
  · rw [Link.counters, Link.counters, same, overruns]
  · rw [(reachable.run ran).watchful.alarm_eq, (reachable.run ran').watchful.alarm_eq, same]
  · have before : (s.link.intake clockwork).receiver = s.link.engine.receiver := rfl
    rw [published, shown, before, Receiver.ended?]
    split <;> rfl

/-- The start code and one slot of a frame, and 100 us later a break and the start code and one
slot of the next one, which wait in the queue. -/
def truncatedRun : List (Action Bench) :=
  benchStart ++ earlierRun ++ [.disturb (Bench.receiveBreak ∘ Bench.advance 100),
    .disturb (Bench.receive [0x00, 0x09] 0x01)]

/-- The frame has ended 44 us ago. Either order publishes it, once, and sets the alarm for the
frame behind the break. -/
theorem Reachable.break_timeout_commute_truncated :
    ∃ s t u : Node Bench 0 0, s.Reachable ∧
      s.run [.perform (.interrupt .uart), .perform (.interrupt .receiveTimeout)] = .ok t ∧
      s.run [.perform (.interrupt .receiveTimeout), .perform (.interrupt .uart)] = .ok u ∧
      t.link.line.journal.publications = u.link.line.journal.publications ∧
      t.link.line.journal.alarm? .receiveTimeout = u.link.line.journal.alarm? .receiveTimeout ∧
      ∃ frames, t.link.line.journal.publications =
          .dmx { slots := [0x05], slotToSlot := 44 } :: frames ∧
        ∀ frame, .dmx frame ∉ frames := by
  have carried : (powerUp {} : Node Bench 0 0).Ends truncatedRun fun s =>
      Bench.clockwork.pending s.link.line.hardware = [.lineBreak, .byte 0x00, .byte 0x09] ∧
        s.link.line.hardware.step = 0 ∧ s.link.line.journal.publications = [] ∧
        s.link.engine.receiver.overdue s.link.line.now = true ∧
        s.link.engine.receiver.dmxFrame = { slots := [0x05], slotToSlot := 44 } := by
    decide +kernel
  obtain ⟨s, ran, begins, step, none, overdue, frame⟩ := carried
  have reachable : s.Reachable := ⟨{}, truncatedRun, ran⟩
  have still (n : Nat) : Bench.clockwork.readings s.link.line.hardware n = s.link.line.now := by
    change Bench.readingsFrom s.link.line.hardware.clock s.link.line.hardware.step n = _
    rw [step, Bench.readingsFrom_zero]
    rfl
  obtain ⟨t, u, first, second, publications, _, _, _, _, alarm, frames, published, silent⟩ :=
    Reachable.break_timeout_commute reachable Bench.clockwork begins still
  rw [none, overdue, frame] at published
  exact ⟨s, t, u, reachable, first, second, publications, alarm, frames, published, silent⟩

end Dmx512.Node
