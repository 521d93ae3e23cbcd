import Dmx512.Proofs.Line.Levels
import Dmx512.Proofs.Link.Sound

/-!
# Engine and hardware agree

`Scene.Wired` says how the break, the interrupt masks, the transmit alarm and the
direction pin stand to the engine. It holds at every moment, and so in particular
where an interrupt is served while the foreground stops, turns or takes the line:
every step keeps it.
-/

namespace Dmx512

open Standard

/-- The hardware was told what the engine asks for. -/
structure Engine.Wired (e : Engine) (levels : Levels) : Prop where
  /-- Only a running output has a transmit sequence. -/
  idle : e.sending = false → e.transmitter.state = .idle
  /-- Only a running input has a packet under construction. -/
  deaf : e.receiving = false → e.receiver.state = .idle
  /-- The break of a sequence is on the line. -/
  lineBreak : e.transmitter.state = .lineBreak → levels.lineBreak = true
  /-- Any other break is one that the foreground put on a stopped output. -/
  released : levels.lineBreak = true →
    e.transmitter.state = .lineBreak ∨ (e.running = false ∧ e.direction = .output)
  receive : levels.receive = e.receiving
  transmit : levels.transmit = decide (e.transmitter.state = .data)
  /-- A sequence that goes on has its alarm. -/
  armed : e.sending = true → e.transmitter.stopping = false → levels.alarm.isSome = true
  disarmed : e.sending = false → levels.alarm = none
  /-- The pin has the level of the direction, if it ever took one. -/
  pin : ∀ level, levels.pin = some level → level = e.direction.pinLevel
  /-- Before that the link is a stopped input. -/
  undriven : levels.pin = none → e.direction = .input ∧ e.running = false
  direction : levels.direction = e.direction
  phase : levels.phase = e.transmitter.state

namespace Engine.Wired

variable {e e' : Engine} {levels levels' : Levels} {transmitter : Transmitter}

/-- What does not concern the hardware may change. -/
theorem congr (h : e.Wired levels) (state : e'.transmitter.state = e.transmitter.state)
    (stopping : e'.transmitter.stopping = e.transmitter.stopping)
    (deaf : e'.receiver.state = e.receiver.state ∨ e.receiving = true)
    (direction : e'.direction = e.direction) (running : e'.running = e.running) :
    e'.Wired levels := by
  have receiving : e'.receiving = e.receiving := by rw [receiving, receiving, direction, running]
  have sending : e'.sending = e.sending := by rw [sending, sending, direction, running]
  constructor <;> grind [Engine.Wired]

theorem lineBreak_eq (h : e.Wired levels) (sending : e.sending = true) :
    levels.lineBreak = decide (e.transmitter.state = .lineBreak) := by
  have running : e.running = true := by
    rw [Engine.sending, Bool.and_eq_true] at sending
    exact sending.1
  rw [Bool.eq_iff_iff, decide_eq_true_iff]
  refine ⟨fun asserted => ?_, h.lineBreak⟩
  rcases h.released asserted with sequence | ⟨stopped, _⟩
  · exact sequence
  · rw [running] at stopped
    contradiction

/-- While the link sends, the sequence may go on. -/
theorem sends (h : e.Wired levels) (sending : e.sending = true)
    (lineBreak : levels'.lineBreak = decide (transmitter.state = .lineBreak))
    (transmit : levels'.transmit = decide (transmitter.state = .data))
    (armed : transmitter.stopping = false → levels'.alarm.isSome = true)
    (phase : levels'.phase = transmitter.state) (receive : levels'.receive = levels.receive)
    (pin : levels'.pin = levels.pin) (direction : levels'.direction = levels.direction) :
    { e with transmitter }.Wired levels' := by
  have sending' : { e with transmitter }.sending = true := sending
  constructor
  case idle | disarmed => simp [sending']
  case lineBreak => simp [lineBreak]
  case released => simp +contextual [lineBreak]
  case armed => exact fun _ => armed
  case receive => exact receive.trans h.receive
  case transmit => exact transmit
  case phase => exact phase
  case deaf => exact h.deaf
  case pin => exact pin ▸ h.pin
  case undriven => exact pin ▸ h.undriven
  case direction => exact direction.trans h.direction

/-- A stopped link. -/
theorem stopped (running : e.running = false) (idle : e.transmitter.state = .idle)
    (deaf : e.receiver.state = .idle)
    (released : levels.lineBreak = true → e.direction = .output)
    (receive : levels.receive = false) (transmit : levels.transmit = false)
    (disarmed : levels.alarm = none)
    (pin : ∀ level, levels.pin = some level → level = e.direction.pinLevel)
    (undriven : levels.pin = none → e.direction = .input)
    (direction : levels.direction = e.direction) (phase : levels.phase = .idle) :
    e.Wired levels := by
  have sending : e.sending = false := by rw [Engine.sending, running, Bool.false_and]
  have receiving : e.receiving = false := by rw [Engine.receiving, running, Bool.false_and]
  constructor
  case idle => exact fun _ => idle
  case deaf => exact fun _ => deaf
  case lineBreak => simp [idle]
  case released => exact fun asserted => .inr ⟨running, released asserted⟩
  case receive => rw [receive, receiving]
  case transmit => simp [transmit, idle]
  case armed => simp [sending]
  case disarmed => exact fun _ => disarmed
  case pin => exact pin
  case undriven => exact fun never => ⟨undriven never, running⟩
  case direction => exact direction
  case phase => rw [phase, idle]

end Engine.Wired

def Scene.Wired {d r : Nat} (s : Scene d r) : Prop := s.engine.Wired s.journal.levels

theorem Hands.quiet {bytes : List UInt8} {entries : Journal} (h : Hands bytes entries) :
    ∀ entry ∈ entries, entry.event.IsQuiet := by
  intro entry mem
  rcases h.only entry mem with ⟨_, event⟩ | ⟨_, event⟩ <;> rw [event] <;> trivial

namespace Engine.Wired

variable {e : Engine} {journal entries : Journal} {transmitter : Transmitter}

open Journal

/-- Bytes of a frame wait only while the link sends. -/
theorem sending_of_data (h : e.Wired journal.levels) (phase : e.transmitter.state = .data) :
    e.sending = true := by
  apply Bool.not_eq_false _ |>.mp
  intro quiet
  rw [h.idle quiet] at phase
  contradiction

theorem resume (h : e.Wired journal.levels)
    (continues : e.transmitter.Continues entries transmitter) :
    { e with transmitter }.Wired (entries ++ journal).levels := by
  cases continues with
  | part phase short hands =>
      rw [levels_append hands.quiet]
      exact h.congr rfl rfl (.inl rfl) rfl rfl
  | whole time phase hands =>
      have sending := h.sending_of_data phase
      rw [List.cons_append, levels_allowTransmit, levels_append hands.quiet]
      refine h.sends sending ?_ rfl (h.armed sending) rfl rfl rfl rfl
      simp [h.lineBreak_eq sending, phase]

theorem pace (h : e.Wired journal.levels) (sending : e.sending = true) {now : Micros}
    {next : Option Micros} (later : Micros)
    (advances : e.transmitter.Advances now entries transmitter next) :
    { e with transmitter }.Wired (levels (⟨later, .order (alarmOrder .transmit next)⟩ ::
      (entries.append (⟨now, .transmitAlarm e.transmitter.state⟩ :: journal)))) := by
  rw [List.append_eq]
  have lineBreak := h.lineBreak_eq sending
  have transmit := h.transmit
  have phase' := h.phase
  cases advances with
  | rest phase last =>
      rw [List.nil_append, alarmOrder.eq_2, levels_cancelAlarm, levels_transmitAlarm]
      refine h.sends sending ?_ ?_ ?_ rfl rfl rfl rfl
      · rcases phase with phase | phase <;> simp [lineBreak, phase]
      · rcases phase with phase | phase <;> simp [transmit, phase]
      · simp [last]
  | lineBreak time phase more begun =>
      obtain ⟨timing, begins⟩ := e.transmitter.beginFrame_ok now
      cases begins.symm.trans begun
      rw [List.singleton_append, alarmOrder.eq_1, levels_setAlarm, levels_setBreak,
        levels_transmitAlarm]
      refine h.sends sending rfl ?_ (fun _ => rfl) ?_ rfl rfl rfl
      · rcases phase with phase | phase <;> simp [transmit, phase]
      · simp [h.armed sending more]
  | mark time phase =>
      rw [List.singleton_append, alarmOrder.eq_1, levels_setAlarm, levels_setBreak,
        levels_transmitAlarm]
      refine h.sends sending rfl ?_ (fun _ => rfl) ?_ rfl rfl rfl
      · simp [transmit, phase]
      · simp [phase', phase]
  | whole phase hands =>
      rw [alarmOrder.eq_1, levels_setAlarm, levels_append hands.quiet, levels_transmitAlarm]
      refine h.sends sending ?_ ?_ (fun _ => rfl) ?_ rfl rfl rfl
      · simp [lineBreak, phase]
      · simp [transmit, phase]
      · simp [phase]
  | part time phase short hands =>
      rw [alarmOrder.eq_1, levels_setAlarm, List.cons_append, levels_allowTransmit,
        levels_append hands.quiet, levels_transmitAlarm]
      refine h.sends sending ?_ rfl (fun _ => rfl) rfl rfl rfl rfl
      simp [lineBreak, phase]
  | overrun phase =>
      rw [List.nil_append, alarmOrder.eq_1, levels_setAlarm, levels_transmitAlarm]
      refine h.sends sending lineBreak transmit (fun _ => rfl) ?_ rfl rfl rfl
      simp [phase', phase, Transmitter.overrun]

end Engine.Wired

/-- An idle receiver has no timeout to serve. -/
theorem Receiver.onTimeout_idle {r : Receiver} (idle : r.state = .idle) (now : Micros) :
    r.onTimeout now = .ok (r, none) := by
  have stale : r.overdue now = false := by rw [overdue, idle]
  rw [onTimeout, stale]
  rfl

theorem Receiver.state_onTimeout {r r' : Receiver} {frame : Option Frame} {now : Micros}
    (served : r.onTimeout now = .ok (r', frame)) (idle : r.state = .idle) : r'.state = .idle := by
  cases (onTimeout_idle idle now).symm.trans served
  exact idle

namespace Scene

variable {d r : Nat} {s : Scene d r}

theorem levels_publish (time : Micros) (frame : Option Frame) :
    (s.publish time frame).journal.levels = s.journal.levels := by
  rcases frame with - | frame | frame
  · rfl
  · exact Journal.levels_cons trivial
  · exact Journal.levels_cons trivial

theorem levels_watch (time : Micros) (watchdog : Option Micros) :
    (s.watch time watchdog).journal.levels = s.journal.levels :=
  Journal.levels_cons (by cases watchdog <;> trivial)

theorem levels_sync (time : Micros) : (s.sync time).journal.levels = s.journal.levels := by
  rw [sync]
  split
  · rfl
  · exact levels_watch time _

theorem levels_turn (driven time : Micros) (direction : Direction) :
    (s.turn driven time direction).journal.levels =
      { s.journal.levels with pin := some direction.pinLevel, direction } := rfl

theorem levels_start_input (input : s.engine.direction = .input) (first second : Micros) :
    (s.start first second).journal.levels = { s.journal.levels with receive := true } := by
  rw [start_input _ _ input]
  rfl

theorem levels_start_output (output : s.engine.direction = .output) (first second : Micros) :
    (s.start first second).journal.levels =
      { s.journal.levels with alarm := some (first + startDelay) } := by
  rw [start_output _ _ output]
  rfl

theorem levels_halt_input (input : s.engine.direction = .input) (first second third : Micros) :
    (s.halt first second third).journal.levels = { s.journal.levels with receive := false } := by
  rw [halt_input _ _ _ input]
  exact levels_sync (s := (s.order first (.allowReceive false)).withReceiver
    s.engine.receiver.reset) second

theorem levels_halt_output (output : s.engine.direction = .output) (first second third : Micros) :
    (s.halt first second third).journal.levels =
      { s.journal.levels with
        lineBreak := false, transmit := false, alarm := none, phase := .idle } := by
  rw [halt_output _ _ _ output]
  rfl

theorem engine_sync (time : Micros) :
    (s.sync time).engine = { s.engine with watchdog := s.engine.receiver.deadline } := by
  rw [sync]
  split
  · rename_i same
    rw [same]
  · rfl

theorem engine_start_input (input : s.engine.direction = .input) (first second : Micros) :
    (s.start first second).engine =
      { s.engine with receiver := s.engine.receiver.reset, running := true } := by
  rw [start_input _ _ input]
  rfl

theorem engine_start_output (output : s.engine.direction = .output) (first second : Micros) :
    (s.start first second).engine =
      { s.engine with transmitter := s.engine.transmitter.start, running := true } := by
  rw [start_output _ _ output]
  rfl

theorem engine_halt_input (input : s.engine.direction = .input) (first second third : Micros) :
    (s.halt first second third).engine =
      { s.engine with
        receiver := s.engine.receiver.reset, watchdog := none, running := false } := by
  rw [halt_input _ _ _ input, withRunning, engine_sync]
  rfl

theorem engine_halt_output (output : s.engine.direction = .output) (first second third : Micros) :
    (s.halt first second third).engine =
      { s.engine with transmitter := s.engine.transmitter.stop, running := false } := by
  rw [halt_output _ _ _ output]
  rfl

namespace Wired

/-- Bringing the receive alarm in line is of no concern to the other hardware. -/
theorem sync (h : s.Wired) (time : Micros) : (s.sync time).Wired := by
  rw [Scene.Wired, levels_sync, engine_sync]
  exact h.congr rfl rfl (.inl rfl) rfl rfl

theorem paceIdle (h : s.Wired) (idle : s.engine.sending = false) (time : Micros) :
    (s.order time (.cancelAlarm .transmit)).Wired := by
  have same : (s.order time (.cancelAlarm .transmit)).journal.levels = s.journal.levels := by
    refine Levels.ext rfl rfl rfl (h.disarmed idle).symm rfl rfl ?_
    exact (h.phase.trans (h.idle idle)).symm
  rw [Scene.Wired, same]
  exact h

theorem requestStop (h : s.Wired) : (s.withTransmitter s.engine.transmitter.requestStop).Wired :=
  { h with armed := fun _ => nofun }

section Stopped

variable (h : s.Wired) (stopped : s.engine.running = false)
include h stopped

/-- Nothing is under way on a stopped link. -/
theorem at_rest : s.engine.sending = false ∧ s.engine.receiving = false ∧
    s.engine.transmitter.state = .idle ∧ s.engine.receiver.state = .idle := by
  have sending : s.engine.sending = false := by rw [Engine.sending, stopped, Bool.false_and]
  have receiving : s.engine.receiving = false := by rw [Engine.receiving, stopped, Bool.false_and]
  exact ⟨sending, receiving, h.idle sending, h.deaf receiving⟩

theorem setBreak (output : s.engine.direction = .output) (time : Micros) (asserted : Bool) :
    (s.order time (.setBreak asserted)).Wired := by
  obtain ⟨sending, receiving, idle, deaf⟩ := h.at_rest stopped
  apply Engine.Wired.stopped stopped idle deaf
  case released => exact fun _ => output
  case receive => exact h.receive.trans receiving
  case transmit => exact h.transmit.trans (by simp [idle])
  case disarmed => exact h.disarmed sending
  case pin => exact h.pin
  case undriven => exact fun never => (h.undriven never).1
  case direction => exact h.direction
  case phase =>
    change (Journal.levels (_ :: _)).phase = _
    rw [Journal.levels_setBreak]
    simp [h.disarmed sending, h.phase, idle]

variable (released : s.journal.breakAsserted = false)
include released

theorem turn (driven time : Micros) (direction : Direction) :
    (s.turn driven time direction).Wired := by
  obtain ⟨sending, receiving, idle, deaf⟩ := h.at_rest stopped
  rw [Scene.Wired, levels_turn]
  apply Engine.Wired.stopped (e := (s.turn driven time direction).engine) stopped idle deaf
  case released => simp [Journal.levels, released]
  case receive => exact h.receive.trans receiving
  case transmit => exact h.transmit.trans (by simp [idle])
  case disarmed => exact h.disarmed sending
  case pin => rintro level ⟨⟩; rfl
  case undriven => exact nofun
  case direction => rfl
  case phase => exact h.phase.trans idle

theorem start (driven : s.journal.pinLevel?.isSome) (first second : Micros) :
    (s.start first second).Wired := by
  obtain ⟨sending, receiving, idle, deaf⟩ := h.at_rest stopped
  have wired : s.engine.Wired s.journal.levels := h
  have released' : s.journal.levels.lineBreak = false := released
  have driven' : s.journal.levels.pin.isSome = true := driven
  cases present : s.engine.direction with
  | input =>
      rw [Scene.Wired, levels_start_input present, engine_start_input present]
      constructor <;> grind [Engine.Wired, Engine.sending, Engine.receiving]
  | output =>
      rw [Scene.Wired, levels_start_output present, engine_start_output present]
      constructor <;> grind [Engine.Wired, Engine.sending, Engine.receiving, Transmitter.start]

end Stopped

theorem halt (h : s.Wired) (first second third : Micros) : (s.halt first second third).Wired := by
  cases present : s.engine.direction with
  | input =>
      have sending : s.engine.sending = false := by simp [Engine.sending, present]
      rw [Scene.Wired, levels_halt_input present, engine_halt_input present]
      apply Engine.Wired.stopped
      case running | deaf | receive => rfl
      case idle => exact h.idle sending
      case released =>
        intro asserted
        rcases h.released asserted with sequence | ⟨_, output⟩
        · simp [h.idle sending] at sequence
        · exact output
      case transmit => exact h.transmit.trans (by simp [h.idle sending])
      case disarmed => exact h.disarmed sending
      case pin => exact h.pin
      case undriven => exact fun _ => present
      case direction => exact h.direction
      case phase => exact h.phase.trans (h.idle sending)
  | output =>
      have receiving : s.engine.receiving = false := by simp [Engine.receiving, present]
      rw [Scene.Wired, levels_halt_output present, engine_halt_output present]
      apply Engine.Wired.stopped
      case running | idle | transmit | disarmed => rfl
      case deaf => exact h.deaf receiving
      case released => exact fun asserted => absurd asserted Bool.false_ne_true
      case receive => exact h.receive.trans receiving
      case pin => exact h.pin
      case undriven => exact fun never => (h.undriven never).1
      case direction => exact h.direction
      case phase => rfl

/-- A timeout that finds no packet under construction is stale. -/
theorem timeOut (h : s.Wired) {time : Micros} {receiver : Receiver} {frame : Option Frame}
    (served : s.engine.receiver.onTimeout time = .ok (receiver, frame)) :
    (((s.note time .receiveAlarm).withReceiver receiver).publish time frame).Wired := by
  rw [Scene.Wired, levels_publish, engine_publish]
  refine h.congr rfl rfl ?_ rfl rfl
  by_cases receiving : s.engine.receiving = true
  · exact .inr receiving
  · have idle := h.deaf (Bool.eq_false_iff.mpr receiving)
    exact .inl ((Receiver.state_onTimeout served idle).trans idle.symm)

end Wired

end Scene

section

variable {d r : Nat} {kind : Step.Kind} {kinds : Step.Kind → Prop} {s t : Scene d r}

/-- Whatever happens to a link, its hardware is told. -/
theorem Step.wired (step : Step kind s t) (h : s.Wired) : t.Wired := by
  cases step with
  | readClock | sample | write | takeDmx | takeRdm | flush | refuse => exact h
  | claim | release => exact h.congr rfl rfl (.inl rfl) rfl rfl
  | hear receiving =>
      rw [Scene.Wired, Scene.levels_publish, Scene.engine_publish]
      exact h.congr rfl rfl (.inr receiving) rfl rfl
  | timeOut later served =>
      rw [Scene.Wired, Scene.levels_watch]
      exact (h.timeOut served).congr rfl rfl (.inl rfl) rfl rfl
  | sync time => exact h.sync time
  | resume continues => exact Engine.Wired.resume h continues
  | pace later sending advances => exact Engine.Wired.pace h sending later advances
  | paceIdle time idle => exact h.paceIdle idle time
  | queue time queued =>
      obtain ⟨_, timing, rfl⟩ := Transmitter.eq_of_queue queued
      exact h.congr rfl rfl (.inl rfl) rfl rfl
  | configure configured =>
      obtain ⟨timing, configures⟩ := s.engine.transmitter.configure_ok _
      cases configures.symm.trans configured
      exact h.congr rfl rfl (.inl rfl) rfl rfl
  | turn driven time direction stopped released => exact h.turn stopped released _ _ _
  | requestStop => exact h.requestStop
  | start first second _ stopped released driven => exact h.start stopped released driven _ _
  | halt first second third => exact h.halt _ _ _
  | setBreak time asserted stopped output => exact h.setBreak stopped output _ _

theorem Steps.wired (steps : Steps kinds s t) (h : s.Wired) : t.Wired := by
  induction steps with
  | refl => exact h
  | tail _ step ih =>
      obtain ⟨_, _, step⟩ := step
      exact step.wired ih

end

end Dmx512
