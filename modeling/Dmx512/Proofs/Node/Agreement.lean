import Dmx512.Bench
import Dmx512.Proofs.Node.Runs

/-!
# Hardware and engine agree

After every operation of every run, whether it was done or refused: the break is on
the line in the break of a sequence and at no other time, each interrupt is allowed
while it is waited for, the transmit alarm is set as long as a sequence goes on, only
what runs is under way, and the direction pin has the level of the direction.
-/

namespace Dmx512

open Act

/-- What the hardware was told last is what the engine is in. -/
structure Engine.Agrees (e : Engine) (journal : Journal) : Prop where
  /-- The break is on the line in the break of a sequence. -/
  lineBreak : journal.breakAsserted = true ↔ e.transmitter.state = .lineBreak
  /-- Room in the transmit queue is waited for while bytes of a frame wait. -/
  transmit : journal.transmitAllowed = true ↔ e.transmitter.state = .data
  /-- Received bytes are waited for while the input runs. -/
  receive : journal.receiveAllowed = true ↔ e.direction = .input ∧ e.running = true
  /-- The next transmit alarm is set while the output runs. -/
  alarm : (journal.alarm? .transmit).isSome = true ↔ e.direction = .output ∧ e.running = true
  /-- Only a running output has a sequence under way. -/
  sequence : e.transmitter.state ≠ .idle → e.direction = .output ∧ e.running = true
  /-- Only a running input has a packet under construction. -/
  packet : e.receiver.state ≠ .idle → e.direction = .input ∧ e.running = true

/-- Where no operation is under way, hardware and engine agree. -/
theorem Scene.Steady.agrees {d r : Nat} {s : Scene d r} (h : s.Steady) :
    s.engine.Agrees s.journal where
  lineBreak := by
    refine ⟨fun asserted => ?_, h.wired.lineBreak⟩
    rcases h.wired.released asserted with sequence | ⟨stopped, _⟩
    · exact sequence
    · exact absurd asserted (Bool.eq_false_iff.mp (h.settled.released stopped))
  transmit := by
    rw [show s.journal.transmitAllowed = _ from h.wired.transmit, decide_eq_true_iff]
  receive := by
    rw [show s.journal.receiveAllowed = _ from h.wired.receive, Engine.receiving_iff]
  alarm := by
    rw [← Engine.sending_iff]
    refine ⟨fun armed => ?_, fun sending => h.wired.armed sending h.settled.goesOn⟩
    apply Bool.not_eq_false _ |>.mp
    intro quiet
    have disarmed : s.journal.alarm? .transmit = none := h.wired.disarmed quiet
    simp [disarmed] at armed
  sequence busy := by
    rw [← Engine.sending_iff]
    exact Bool.not_eq_false _ |>.mp fun quiet => busy (h.wired.idle quiet)
  packet busy := by
    rw [← Engine.receiving_iff]
    exact Bool.not_eq_false _ |>.mp fun deaf => busy (h.wired.deaf deaf)

/-- A pin that has taken a level has that of the direction. -/
theorem Scene.Wired.pinLevel {d r : Nat} {s : Scene d r} (h : s.Wired)
    (driven : s.journal.pinLevel?.isSome = true) :
    s.journal.pinLevel? = some s.engine.direction.pinLevel := by
  obtain ⟨level, took⟩ := Option.isSome_iff_exists.mp driven
  rw [took, h.pin level took]

namespace Node

variable {H : Type} [Hardware H] {d r : Nat}

/-- Every run from power-up ends, unless it waits on a clock that stands still, and
where it ends, hardware and engine agree; and once a station has attached, the level
that the pin took last is that of the direction. -/
theorem powerUp_run_agrees (hardware : H) (actions : List (Action H)) :
    (∀ fault, (powerUp hardware : Node H d r).run actions = .error fault → fault.IsStall) ∧
      ∀ t, (powerUp hardware : Node H d r).run actions = .ok t →
        t.link.engine.Agrees t.link.line.journal ∧
        ∀ n m, (powerUp hardware : Node H d r).run (actions.take n) = .ok m →
          m.station.isSome = true →
          t.link.line.journal.pinLevel? = some t.link.engine.direction.pinLevel := by
  have fresh : (powerUp hardware : Node H d r).Sound := .powerUp hardware
  refine ⟨fun _ => fresh.run_stalls, fun t ran => ?_⟩
  have sound := fresh.run ran
  refine ⟨sound.toSteady.agrees, fun n m start present => sound.wired.pinLevel ?_⟩
  -- The pin took a level by the time of `m`, and has had one ever since.
  have sound' := fresh.run start
  rw [← List.take_append_drop n actions, run_append start] at ran
  exact Journal.isSome_pinLevel? (sound'.run_moves ran).steps.journal_suffix
    (sound'.settled.driven (sound'.attached.trans present))

/-- A station that attaches as an output, sends a frame up to where bytes of it wait,
and is turned by a pin that refuses. -/
def refusedTurn : List (Action Bench) :=
  [.disturb (Bench.fitQueue (some 1) 0), .disturb (Bench.setStep 1000),
    .perform (.attach { direction := .output }), .perform (.interrupt .transmitTimer),
    .perform (.interrupt .transmitTimer), .perform (.interrupt .transmitTimer),
    .disturb (Bench.listPinFailures [true]), .perform (.setDirection .input true)]

theorem powerUp_run_agrees_refused :
    ∃ m t : Node Bench 0 0, (powerUp {}).run (refusedTurn.take 6) = .ok m ∧
      (powerUp {}).run refusedTurn = .ok t ∧ m.station.isSome = true ∧
      m.link.engine.transmitter.state = .data ∧ m.link.engine.Agrees m.link.line.journal ∧
      t.link.line.journal.head? = some ⟨56000, .pin false false⟩ ∧
      t.link.engine.Agrees t.link.line.journal ∧ t.link.line.journal.pinLevel? = some true := by
  have carried : (powerUp {} : Node Bench 0 0).Ends (refusedTurn.take 6) fun m =>
      m.station.isSome = true ∧ m.link.engine.transmitter.state = .data ∧
        (powerUp {} : Node Bench 0 0).Ends refusedTurn fun t =>
          t.link.engine.direction = .output ∧
            t.link.line.journal.head? = some ⟨56000, .pin false false⟩ := by
    decide +kernel
  obtain ⟨m, start, present, phase, t, ran, output, last⟩ := carried
  have holds (actions : List (Action Bench)) :=
    powerUp_run_agrees (d := 0) (r := 0) ({} : Bench) actions
  have before := (holds (refusedTurn.take 6)).2 m start
  have after := (holds refusedTurn).2 t ran
  have level := after.2 6 m start present
  rw [output] at level
  exact ⟨m, t, start, ran, present, phase, before.1, last, after.1, level⟩

end Node

end Dmx512
