import Dmx512.Proofs.Line.Duration
import Dmx512.Proofs.Link.Settled
import Dmx512.Station.Attachment

/-!
# What control makes of a link

One relation for each thing that the foreground does to the sequencers of a link
says what it makes of the link, completely: stopping the sequencer that runs,
turning the line, switching it as a station asks, and attaching and detaching
a station. What is said elsewhere of these operations is read off the relations:
they make steps, they leave the link settled, and it stands as they say.
-/

namespace Dmx512

open Step.Kind (IsFrameless IsSteering frameless_adjust steering_interrupt steering_control)

namespace Scene

variable {d r : Nat} {s m t : Scene d r}

/-- Interrupts are served, as while the foreground waits. -/
abbrev Waits : Scene d r → Scene d r → Prop := Steps (· = .interrupt)

theorem Waits.calm (kind : Step.Kind) (within : kind = .interrupt) : kind.IsCalm := .inl within

theorem Waits.manual (kind : Step.Kind) (within : kind = .interrupt) : kind.IsManual := .inl within

theorem Waits.steering (waits : Waits s t) : Steps IsSteering s t :=
  waits.mono fun _ within => within ▸ steering_interrupt

/-- Interrupts are served while `micros` pass, if they are no more than half of the range of
the clock. -/
structure WaitsFor (micros : Micros) (s t : Scene d r) : Prop where
  waits : s.Waits t
  lasts : micros.toNat ≤ 2147483648 →
    ∃ new, t.journal = new ++ s.journal ∧ micros.toNat ≤ Journal.duration new

theorem Settled.start (h : s.Settled) (driven : s.journal.pinLevel?.isSome = true)
    (first second : Micros) : (s.start first second).Settled := by
  obtain ⟨_, running, _⟩ := standing_iff.mp (standing_start (s := s) first second)
  refine ⟨?_, fun stopped => ?_, fun _ => ?_⟩
  · cases direction : s.engine.direction with
    | input => rw [engine_start_input direction]; exact h.goesOn
    | output => rw [engine_start_output direction]; rfl
  · rw [running] at stopped
    contradiction
  · exact Journal.isSome_pinLevel? (suffix_start first second) driven

/-- Stopping the sequencer of the output takes its break off the line; that of the
input has none. -/
theorem Wired.settled_halt (h : s.Wired)
    (goesOn : s.engine.direction = .input → s.engine.transmitter.stopping = false)
    (driven : s.engine.attached = true → s.journal.pinLevel?.isSome = true)
    (first second third : Micros) : (s.halt first second third).Settled := by
  obtain ⟨_, _, attached⟩ := standing_iff.mp (standing_halt (s := s) first second third)
  have driven' (present : (s.halt first second third).engine.attached = true) :
      (s.halt first second third).journal.pinLevel?.isSome = true :=
    Journal.isSome_pinLevel? (suffix_halt _ _ _) (driven (attached.symm.trans present))
  cases direction : s.engine.direction with
  | input =>
      refine ⟨?_, fun _ => ?_, driven'⟩
      · rw [engine_halt_input direction]
        exact goesOn direction
      · have sending : s.engine.sending = false := by simp [Engine.sending, direction]
        refine (congrArg Levels.lineBreak (levels_halt_input direction _ _ _)).trans ?_
        apply Bool.eq_false_iff.mpr
        intro asserted
        rcases h.released asserted with sequence | ⟨_, output⟩
        · simp [h.idle sending] at sequence
        · simp [direction] at output
  | output =>
      refine ⟨?_, fun _ => ?_, driven'⟩
      · rw [engine_halt_output direction]
        rfl
      · exact congrArg Levels.lineBreak (levels_halt_output direction _ _ _)

/-- How a running sequencer is stopped: one of the output is asked to end, and
interrupts are served until it is stopped anyway. -/
inductive Stops (s : Scene d r) : Scene d r → Prop where
  | input (direction : s.engine.direction = .input) (first second third : Micros) :
      Stops s (s.halt first second third)
  | output {m : Scene d r} (direction : s.engine.direction = .output)
      (drains : Waits (s.withTransmitter s.engine.transmitter.requestStop) m)
      (first second third : Micros) : Stops s (m.halt first second third)

namespace Stops

theorem standing (h : s.Stops t) :
    t.standing = (s.engine.direction, false, s.engine.attached) := by
  cases h with
  | input => exact standing_halt _ _ _
  | @output m _ drains =>
      obtain ⟨direction, _, attached⟩ := standing_iff.mp (drains.standing_eq nofun)
      rw [standing_halt, direction, attached]
      rfl

theorem steps (h : s.Stops t) : Steps IsSteering s t := by
  cases h with
  | input => exact .single (.halt _ _ _) steering_control
  | output direction drains =>
      exact .cons (.requestStop direction) steering_control
        (drains.steering.snoc (.halt _ _ _) steering_control)

theorem settled (h : s.Stops t) (steady : s.Steady) : t.Settled := by
  have driven := steady.settled.driven
  cases h with
  | input => exact steady.wired.settled_halt (fun _ => steady.settled.goesOn) driven _ _ _
  | output direction drains =>
      obtain ⟨output, _, attached⟩ := standing_iff.mp (drains.standing_eq nofun)
      refine (drains.wired steady.wired.requestStop).settled_halt (fun input => ?_)
        (fun present => ?_) _ _ _
      · cases input.symm.trans (output.trans direction)
      · exact Journal.isSome_pinLevel? drains.journal_suffix (driven (attached.symm.trans present))

end Stops

inductive Quiets (s : Scene d r) : Scene d r → Prop where
  | still (stopped : s.engine.running = false) : Quiets s s
  | stops {t : Scene d r} (running : s.engine.running = true) (stops : s.Stops t) : Quiets s t

namespace Quiets

theorem standing (h : s.Quiets t) :
    t.standing = (s.engine.direction, false, s.engine.attached) := by
  cases h with
  | still stopped => rw [← stopped]; rfl
  | stops _ stops => exact stops.standing

theorem steps (h : s.Quiets t) : Steps IsSteering s t := by
  cases h with
  | still => exact .refl
  | stops _ stops => exact stops.steps

theorem settled (h : s.Quiets t) (steady : s.Steady) : t.Settled := by
  cases h with
  | still => exact steady.settled
  | stops _ stops => exact stops.settled steady

end Quiets

def launch (s : Scene d r) (enable : Bool) (first second : Micros) : Scene d r :=
  if enable then s.start first second else s

/-- A stopped link is turned: the pin takes the level of the direction and the link
the direction, and the sequencer is started if that is wanted. -/
inductive Turns (target : Direction) (enable : Bool) (s : Scene d r) : Scene d r → Prop where
  | intro (driven time first second : Micros) :
      Turns target enable s ((s.turn driven time target).launch enable first second)

namespace Turns

variable {target : Direction} {enable : Bool}

theorem standing (h : s.Turns target enable t) (stopped : s.engine.running = false) :
    t.standing = (target, enable, s.engine.attached) := by
  obtain ⟨driven, time, first, second⟩ := h
  cases enable with
  | true => exact standing_start _ _
  | false => exact standing_iff.mpr ⟨rfl, stopped, rfl⟩

theorem steps (h : s.Turns target enable t) (stopped : s.engine.running = false)
    (released : s.journal.breakAsserted = false) (attached : s.engine.attached = true) :
    Steps IsSteering s t := by
  obtain ⟨driven, time, first, second⟩ := h
  have turns := Steps.single (.turn driven time target stopped released) steering_control
  cases enable with
  | true =>
      exact turns.snoc (.start first second attached stopped released rfl) steering_control
  | false => exact turns

theorem settled (h : s.Turns target enable t) (released : s.journal.breakAsserted = false)
    (goesOn : s.engine.transmitter.stopping = false) : t.Settled := by
  obtain ⟨driven, time, first, second⟩ := h
  have turned : (s.turn driven time target).Settled := ⟨goesOn, fun _ => released, fun _ => rfl⟩
  cases enable with
  | true => exact turned.start rfl first second
  | false => exact turned

end Turns

/-- A station switches its line: the sequencer of the present direction is started or
stopped, or the link is stopped and turned, unless the pin refuses. -/
inductive Switches (target : Direction) (enable : Bool) (s : Scene d r) :
    Outcome Unit → Scene d r → Prop where
  | keeps (same : target = s.engine.direction) (settled : s.engine.running = enable) :
      Switches target enable s (.ok ()) s
  | starts (same : target = s.engine.direction) (stopped : s.engine.running = false)
      (wanted : enable = true) (first second : Micros) :
      Switches target enable s (.ok ()) (s.start first second)
  | stops {t : Scene d r} (same : target = s.engine.direction)
      (running : s.engine.running = true) (unwanted : enable = false) (stops : s.Stops t) :
      Switches target enable s (.ok ()) t
  | refused {m : Scene d r} (other : target ≠ s.engine.direction) (quiets : s.Quiets m)
      (time : Micros) :
      Switches target enable s (.error (.line .pin)) (m.note time (.pin target.pinLevel false))
  | turns {m t : Scene d r} (other : target ≠ s.engine.direction) (quiets : s.Quiets m)
      (turns : m.Turns target enable t) : Switches target enable s (.ok ()) t

namespace Switches

variable {target : Direction} {enable : Bool} {outcome : Outcome Unit}

theorem done (h : s.Switches target enable (.ok ()) t) :
    t.standing = (target, enable, s.engine.attached) := by
  cases h with
  | keeps same settled => rw [same, ← settled]; rfl
  | starts same _ wanted => rw [standing_start, same, wanted]
  | stops same _ unwanted stops => rw [stops.standing, same, unwanted]
  | turns _ quiets turns =>
      obtain ⟨_, stopped, attached⟩ := standing_iff.mp quiets.standing
      rw [turns.standing stopped, attached]

theorem failed {refusal : Refusal} (h : s.Switches target enable (.error refusal) t) :
    t.standing = (s.engine.direction, false, s.engine.attached) := by
  cases h with
  | refused _ quiets => exact quiets.standing

/-- Only the pin refuses, where the line is to be turned, and it does so last. -/
theorem refusal {refusal : Refusal} (h : s.Switches target enable (.error refusal) t) :
    refusal = .line .pin ∧ target ≠ s.engine.direction ∧ ∃ time earlier,
      t.journal = ⟨time, .pin target.pinLevel false⟩ :: earlier ∧ s.journal <:+ earlier := by
  cases h with
  | refused other quiets time => exact ⟨rfl, other, time, _, rfl, quiets.steps.journal_suffix⟩

theorem attached (h : s.Switches target enable outcome t) :
    t.engine.attached = s.engine.attached := by
  cases outcome with
  | ok => exact (standing_iff.mp h.done).2.2
  | error => exact (standing_iff.mp h.failed).2.2

section

variable (h : s.Switches target enable outcome t) (steady : s.Steady)
  (attached : s.engine.attached = true)
include h steady attached

theorem steps : Steps IsSteering s t := by
  cases h with
  | keeps => exact .refl
  | starts _ stopped =>
      exact .single (.start _ _ attached stopped (steady.settled.released stopped)
        (steady.settled.driven attached)) steering_control
  | stops _ _ _ stops => exact stops.steps
  | refused _ quiets =>
      have settled := quiets.settled steady
      obtain ⟨_, stopped, _⟩ := standing_iff.mp quiets.standing
      exact quiets.steps.snoc (.refuse _ _ stopped (settled.released stopped)) steering_control
  | turns _ quiets turns =>
      have settled := quiets.settled steady
      obtain ⟨_, stopped, attached'⟩ := standing_iff.mp quiets.standing
      exact quiets.steps.trans
        (turns.steps stopped (settled.released stopped) (attached'.trans attached))

theorem settled : t.Settled := by
  cases h with
  | keeps => exact steady.settled
  | starts => exact steady.settled.start (steady.settled.driven attached) _ _
  | stops _ _ _ stops => exact stops.settled steady
  | refused _ quiets =>
      have settled := quiets.settled steady
      exact ⟨settled.goesOn, settled.released, settled.driven⟩
  | turns _ quiets turns =>
      obtain ⟨_, stopped, _⟩ := standing_iff.mp quiets.standing
      have settled := quiets.settled steady
      exact turns.settled (settled.released stopped) settled.goesOn

theorem steady' : t.Steady :=
  have steps := h.steps steady attached
  ⟨steps.sound steady.sound, steps.wired steady.wired, h.settled steady attached⟩

end

/-- A link that sends before and after was not touched. -/
theorem eq_of_sending (h : s.Switches target enable outcome t)
    (before : s.engine.sending = true) (after : t.engine.sending = true) : t = s := by
  simp only [Engine.sending, Bool.and_eq_true, beq_iff_eq] at before after
  obtain ⟨running, output⟩ := before
  obtain ⟨running', output'⟩ := after
  cases h with
  | keeps => rfl
  | starts _ stopped => simp [stopped] at running
  | stops _ _ _ stops =>
      obtain ⟨_, stopped, _⟩ := standing_iff.mp stops.standing
      simp [stopped] at running'
  | refused _ quiets =>
      obtain ⟨_, stopped, _⟩ := standing_iff.mp quiets.standing
      exact absurd running' (by simp [Scene.note, stopped])
  | turns other quiets turns =>
      obtain ⟨_, stopped, _⟩ := standing_iff.mp quiets.standing
      obtain ⟨direction, _, _⟩ := standing_iff.mp (turns.standing stopped)
      exact absurd (direction.symm.trans (output'.trans output.symm)) other

end Switches

def claim (s : Scene d r) : Scene d r := { s with engine := { s.engine with attached := true } }

def leave (s : Scene d r) : Scene d r := { s with engine := { s.engine with attached := false } }

/-- A station attaches, unless there is one or the pin refuses: it sets its timing and
turns the link to its direction. -/
inductive Attaches (config : Config) (s : Scene d r) : Outcome Station → Scene d r → Prop where
  | occupied (present : s.engine.attached = true) :
      Attaches config s (.error (.setup .occupied)) s
  | refused (absent : s.engine.attached = false) (time : Micros) :
      Attaches config s (.error (.line .pin)) (s.note time (.pin config.direction.pinLevel false))
  | attaches {t : Scene d r} {transmitter : Transmitter} (absent : s.engine.attached = false)
      (configured : s.engine.transmitter.configure config = .ok transmitter)
      (turns : (s.claim.withTransmitter transmitter).Turns config.direction config.dataEnabled t) :
      Attaches config s (.ok { config }) t

/-- A link without a station is stopped. -/
theorem Sound.stopped_of_absent (h : s.Sound) (absent : s.engine.attached = false) :
    s.engine.running = false := by
  apply Bool.eq_false_iff.mpr
  intro running
  rw [h.attached running] at absent
  contradiction

namespace Attaches

variable {config : Config} {outcome : Outcome Station}

theorem failed {refusal : Refusal} (h : s.Attaches config (.error refusal) t) :
    t.engine = s.engine := by
  cases h <;> rfl

theorem done {station : Station} (h : s.Attaches config (.ok station) t) (sound : s.Sound) :
    t.standing = (config.direction, config.dataEnabled, true) := by
  cases h with
  | attaches absent _ turns => exact turns.standing (sound.stopped_of_absent absent)

/-- A sequencer that runs has a station, so that no other one attaches. -/
theorem eq_of_running (h : s.Attaches config outcome t) (sound : s.Sound)
    (running : s.engine.running = true) : t = s := by
  have present := sound.attached running
  cases h with
  | occupied => rfl
  | refused absent | attaches absent => simp [present] at absent

theorem steps (h : s.Attaches config outcome t) (steady : s.Steady) : Steps IsFrameless s t := by
  have control : IsFrameless .control := steering_control.frameless
  cases h with
  | occupied => exact .refl
  | refused absent time =>
      have stopped := steady.sound.stopped_of_absent absent
      exact .single (.refuse _ _ stopped (steady.settled.released stopped)) control
  | attaches absent configured turns =>
      have stopped := steady.sound.stopped_of_absent absent
      have turned := turns.steps stopped (steady.settled.released stopped) rfl
      exact .cons .claim control (.cons (.configure configured) frameless_adjust
        (turned.mono fun _ => IsSteering.frameless))

theorem settled (h : s.Attaches config outcome t) (steady : s.Steady) : t.Settled := by
  have settled := steady.settled
  cases h with
  | occupied => exact settled
  | refused => exact ⟨settled.goesOn, settled.released, settled.driven⟩
  | attaches absent configured turns =>
      have stopped := steady.sound.stopped_of_absent absent
      obtain ⟨timing, configures⟩ := s.engine.transmitter.configure_ok config
      cases configures.symm.trans configured
      exact turns.settled (settled.released stopped) settled.goesOn

end Attaches

inductive Detaches (s : Scene d r) : Scene d r → Prop where
  | still (stopped : s.engine.running = false) : Detaches s s.leave
  | halts (running : s.engine.running = true) (first second third : Micros) :
      Detaches s (s.halt first second third).leave

namespace Detaches

theorem standing (h : s.Detaches t) : t.standing = (s.engine.direction, false, false) := by
  cases h with
  | still stopped => exact standing_iff.mpr ⟨rfl, stopped, rfl⟩
  | halts running first second third =>
      obtain ⟨direction, stopped, _⟩ := standing_iff.mp (standing_halt (s := s) first second third)
      exact standing_iff.mpr ⟨direction, stopped, rfl⟩

theorem steps (h : s.Detaches t) : Steps IsSteering s t := by
  cases h with
  | still stopped => exact .single (.release stopped) steering_control
  | halts running first second third =>
      obtain ⟨_, stopped, _⟩ := standing_iff.mp (standing_halt (s := s) first second third)
      exact .cons (.halt first second third) steering_control
        (.single (.release stopped) steering_control)

theorem settled (h : s.Detaches t) (steady : s.Steady) : t.Settled := by
  cases h with
  | still => exact ⟨steady.settled.goesOn, steady.settled.released, nofun⟩
  | halts running first second third =>
      have halted := steady.wired.settled_halt (fun _ => steady.settled.goesOn)
        steady.settled.driven first second third
      exact ⟨halted.goesOn, halted.released, nofun⟩

end Detaches

end Scene

end Dmx512
