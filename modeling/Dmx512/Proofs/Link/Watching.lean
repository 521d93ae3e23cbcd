import Dmx512.Proofs.Link.Control
import Dmx512.Proofs.Link.Interrupt
import Dmx512.Proofs.Link.Receiving
import Dmx512.Proofs.Link.Sending

/-!
# The receive alarm

When the frame under construction times out is told three times: by the deadline of the
receiver, by what the engine remembers of the alarm, and by the orders that the hardware was
given. The last two agree at every moment (`Watched`). The deadline moves on while an
interrupt is served, and the alarm is brought in line before the interrupt ends; where the
foreground starts or stops a receiver, there is no deadline. So all three agree between
operations (`Aligned`).
-/

namespace Dmx512

/-- Without a deadline that has come, no frame is overdue. -/
theorem Receiver.overdue_eq_false {r : Receiver} {now : Micros}
    (early : ∀ deadline, r.deadline = some deadline → isDue now deadline = false) :
    r.overdue now = false := by
  rw [overdue]
  split
  · rename_i pending
    exact early _ pending
  · rfl

namespace Scene

variable {d r : Nat} {s m t : Scene d r}

/-- The receive alarm is set to what the engine remembers of it, and it is not set where
the link does not receive. -/
structure Watched (s : Scene d r) : Prop where
  armed : s.journal.alarm? .receiveTimeout = s.engine.watchdog
  idle : s.engine.receiving = false → s.engine.watchdog = none

def Aligned (s : Scene d r) : Prop := s.engine.watchdog = s.engine.receiver.deadline

theorem receiveAlarm?_publish (time : Micros) (frame : Option Frame) :
    (s.publish time frame).journal.alarm? .receiveTimeout =
      s.journal.alarm? .receiveTimeout := by
  rcases frame with - | frame | frame <;> rfl

theorem receiveAlarm?_watch (time : Micros) (watchdog : Option Micros) :
    (s.watch time watchdog).journal.alarm? .receiveTimeout = watchdog := by
  cases watchdog <;> rfl

theorem receiveAlarm?_sync (armed : s.journal.alarm? .receiveTimeout = s.engine.watchdog)
    (time : Micros) :
    (s.sync time).journal.alarm? .receiveTimeout = s.engine.receiver.deadline := by
  rw [sync]
  split
  · rename_i same
    exact armed.trans same.symm
  · exact receiveAlarm?_watch time _

theorem aligned_sync (time : Micros) : (s.sync time).Aligned := by
  rw [Aligned, engine_sync]

theorem Apart.aligned (h : s.Apart t) (aligned : s.Aligned) : t.Aligned := by
  rw [Aligned, h.watchdog, h.receiver]
  exact aligned

/-- A receiver that does not run has no deadline. -/
theorem Wired.deadline_eq_none (wired : s.Wired) (sound : s.Sound)
    (deaf : s.engine.receiving = false) : s.engine.receiver.deadline = none :=
  sound.receiver.deadline_eq_none (by rw [wired.deaf deaf]; decide)

theorem Receives.watched (h : s.Receives t) (sound : s.Sound) (wired : s.Wired)
    (watched : s.Watched) : t.Watched := by
  cases h with
  | apart apart =>
      refine ⟨?_, fun deaf => ?_⟩
      · rw [apart.receiveAlarm?, apart.watchdog]
        exact watched.armed
      · rw [apart.watchdog]
        exact watched.idle (apart.receiving.symm.trans deaf)
  | hear receiving heard =>
      refine ⟨?_, fun deaf => ?_⟩
      · rw [receiveAlarm?_publish, engine_publish]
        exact watched.armed
      · rw [engine_publish] at deaf
        exact absurd (receiving.symm.trans deaf) (by decide)
  | timeOut later served => exact ⟨receiveAlarm?_watch later none, fun _ => rfl⟩
  | sync time =>
      refine ⟨?_, fun deaf => ?_⟩
      · rw [engine_sync]
        exact receiveAlarm?_sync watched.armed time
      · rw [engine_sync] at deaf ⊢
        exact wired.deadline_eq_none sound deaf
  | start input stopped first second =>
      have disarmed := watched.idle (receiving_of_stopped stopped)
      refine ⟨?_, fun _ => ?_⟩
      · rw [engine_start_input input, start_input _ _ input]
        exact watched.armed
      · rw [engine_start_input input]
        exact disarmed
  | halt input first second third =>
      have synced := receiveAlarm?_sync (s := (s.order first (.allowReceive false)).withReceiver
        s.engine.receiver.reset) watched.armed second
      refine ⟨?_, fun _ => ?_⟩
      · rw [engine_halt_input input, halt_input _ _ _ input]
        exact synced
      · rw [engine_halt_input input]

end Scene

section

variable {d r : Nat} {kind : Step.Kind} {kinds : Step.Kind → Prop} {s t : Scene d r}

/-- Whatever happens to a link, its receive alarm is watched. -/
theorem Steps.watched (steps : Steps kinds s t) (sound : s.Sound) (wired : s.Wired)
    (watched : s.Watched) : t.Watched := by
  induction steps with
  | refl => exact watched
  | tail steps step ih =>
      obtain ⟨_, _, step⟩ := step
      exact step.receives.watched (Steps.sound steps sound) (Steps.wired steps wired) ih

/-- Only interrupts and control concern the receiver. -/
theorem Step.apart (step : Step kind s t) (interrupts : kind ≠ .interrupt)
    (controls : kind ≠ .control) : s.Apart t := by
  cases step with
  | readClock | sample | hear | timeOut | sync | resume | pace | paceIdle => contradiction
  | claim | release | refuse | turn | requestStop | start | halt => contradiction
  | queue => exact (Scene.Apart.withTransmitter _).trans (.note (by trivial) _)
  | configure => exact .withTransmitter _
  | takeDmx | takeRdm | flush => exact .of_engine rfl rfl rfl rfl
  | setBreak | write => exact .note (by trivial) _

theorem Steps.apart (steps : Steps kinds s t) (interrupts : ¬ kinds .interrupt)
    (controls : ¬ kinds .control) : s.Apart t := by
  induction steps with
  | refl => exact .of_engine rfl rfl rfl rfl
  | tail _ step ih =>
      obtain ⟨kind, within, step⟩ := step
      exact ih.trans (step.apart (fun same => interrupts (same ▸ within))
        fun same => controls (same ▸ within))

/-- A link that has stopped has no deadline, and no alarm is set for it. -/
theorem Steps.aligned_of_stopped (steps : Steps kinds s t) (steady : s.Steady)
    (watched : s.Watched) (stopped : t.engine.running = false) : t.Aligned := by
  have deaf := Scene.receiving_of_stopped stopped
  have disarmed := (steps.watched steady.sound steady.wired watched).idle deaf
  exact disarmed.trans
    ((steps.wired steady.wired).deadline_eq_none (steps.sound steady.sound) deaf).symm

end

namespace Scene

variable {d r : Nat} {s m t : Scene d r}

/-- The engine is as it was, its alarms are set as before, and nothing was published. -/
structure Stays (s t : Scene d r) : Prop where
  engine : t.engine = s.engine
  publishes : s.Publishes [] t
  alarms : ∀ alarm, t.journal.alarm? alarm = s.journal.alarm? alarm

/-- An alarm that is disarmed and brought in line again is set as before. -/
theorem Stays.rearm (watched : s.Watched) (aligned : s.Aligned) (read served later time : Micros) :
    s.Stays
      ((((s.note read .clockRead).note served .receiveAlarm).watch later none).sync time) := by
  let alarmed : Scene d r := (s.note read .clockRead).note served .receiveAlarm
  have alarmed' : s.Publishes [] alarmed := .silent rfl rfl rfl
  change s.Stays ((alarmed.watch later none).sync time)
  refine ⟨?_, (alarmed'.trans (.watch later none)).trans (.sync time), fun alarm => ?_⟩
  · have same : { s.engine with watchdog := s.engine.receiver.deadline } = s.engine := by
      rw [← aligned]
    rw [engine_sync]
    exact same
  · cases alarm with
    | transmit => exact congrArg Levels.alarm (levels_sync time)
    | receiveTimeout =>
        exact (receiveAlarm?_sync rfl time).trans (aligned.symm.trans watched.armed.symm)

/-- A receiver begins anew without a deadline. -/
theorem aligned_start (watched : s.Watched) (stopped : s.engine.running = false)
    (aligned : s.Aligned) (first second : Micros) : (s.start first second).Aligned := by
  cases direction : s.engine.direction with
  | input =>
      rw [Aligned, engine_start_input direction]
      exact watched.idle (receiving_of_stopped stopped)
  | output =>
      rw [Aligned, engine_start_output direction]
      exact aligned

theorem Turns.aligned {target : Direction} {enable : Bool} (h : s.Turns target enable t)
    (watched : s.Watched) (stopped : s.engine.running = false) (aligned : s.Aligned) :
    t.Aligned := by
  obtain ⟨driven, time, first, second⟩ := h
  have turned : (s.turn driven time target).Watched :=
    ⟨watched.armed, fun _ => watched.idle (receiving_of_stopped stopped)⟩
  cases enable with
  | true => exact aligned_start turned stopped aligned first second
  | false => exact aligned

section

variable (steady : s.Steady) (watched : s.Watched)
include steady watched

theorem Quiets.aligned (h : s.Quiets t) : t.Aligned :=
  h.steps.aligned_of_stopped steady watched (standing_iff.mp h.standing).2.1

theorem Detaches.aligned (h : s.Detaches t) : t.Aligned :=
  h.steps.aligned_of_stopped steady watched (standing_iff.mp h.standing).2.1

theorem Switches.aligned {target : Direction} {enable : Bool} {outcome : Outcome Unit}
    (h : s.Switches target enable outcome t) (aligned : s.Aligned) : t.Aligned := by
  cases h with
  | keeps => exact aligned
  | starts _ stopped => exact aligned_start watched stopped aligned _ _
  | stops _ running _ stops => exact (Quiets.stops running stops).aligned steady watched
  | @refused m _ quiets =>
      have settled : m.Aligned := quiets.aligned steady watched
      exact settled
  | turns _ quiets turns =>
      have watched' := quiets.steps.watched steady.sound steady.wired watched
      exact turns.aligned watched' (standing_iff.mp quiets.standing).2.1
        (quiets.aligned steady watched)

theorem Attaches.aligned {config : Config} {outcome : Outcome Station}
    (h : s.Attaches config outcome t) (aligned : s.Aligned) : t.Aligned := by
  cases h with
  | occupied | refused => exact aligned
  | attaches absent _ turns =>
      exact turns.aligned ⟨watched.armed, watched.idle⟩ (steady.sound.stopped_of_absent absent)
        aligned

variable (attached : s.engine.attached = true)
include attached

/-- A frame is sent on a line that has stopped, and then the receiver begins anew. -/
theorem Transmits.aligned {bytes : List UInt8} {withBreak : Bool} {outcome : Outcome Unit}
    (h : s.Transmits bytes withBreak outcome t) : t.Aligned := by
  have steps := h.steps steady attached
  cases h with
  | refused takes =>
      exact steps.aligned_of_stopped steady watched (standing_iff.mp takes.failed).2.1
  | kept _ _ returns =>
      exact steps.aligned_of_stopped steady watched (standing_iff.mp returns.failed).2.1
  | returned takes frames returns =>
      obtain ⟨sent, steady', attached'⟩ := framed takes frames steady attached
      have keeps := frames.keeps (taken takes)
        ((takes.settled steady attached).released (taken takes).stopped)
      have still := (taken takes).of_standing keeps.standing
      exact returns.aligned steady' (sent.watched steady.sound steady.wired watched)
        (sent.aligned_of_stopped steady watched still.stopped)

theorem Delivers.aligned {frame : Except MessageError (List UInt8)} {withBreak : Bool}
    {spacing : Micros} {outcome : Outcome Unit}
    (h : s.Delivers frame withBreak spacing outcome t) (aligned : s.Aligned) : t.Aligned := by
  cases h with
  | streams | malformed => exact aligned
  | sends _ _ spaces transmits =>
      obtain ⟨steady', attached'⟩ := Delivers.waited spaces.waits steady attached
      exact transmits.aligned steady'
        (Steps.watched spaces.waits steady.sound steady.wired watched) attached'

end

end Scene

namespace Link

open Act Standard

variable {H : Type} [Hardware H] {d r : Nat} {allowed : Fault → Prop} {use : Nat × Bool}
variable {s : Link H d r}

/-- What the transmit alarm does is apart from reception. -/
theorem ensures_pace :
    Ensures allowed use Scene.Sound (pace : Act (Link H d r) Unit) (fun _ => Scene.Apart) := by
  intro s _ sound
  rw [pace]
  simp only [WP.bind_iff, wp_getEngine, WP.ite_iff, wp_readClock, wp_note, setPace_eq, wp_order]
  refine ⟨fun sending => ?_, fun _ => ⟨.note (by trivial) _, rfl⟩⟩
  let alarmed : Link H d r := { s with line := {
    hardware := Hardware.tick s.line.hardware
    journal := ⟨s.line.now, .transmitAlarm s.cell.value.transmitter.state⟩ ::
      ⟨s.line.now, .clockRead⟩ :: s.line.journal } }
  have noted : s.scene.Apart alarmed.scene :=
    (Scene.Apart.note (by trivial) _).trans (.note (by trivial) _)
  have sound' : alarmed.scene.Sound :=
    (sound.note (by simp [Event.topic]) _).note (by simp [Event.topic]) _
  apply (wp_advance (s := alarmed) sound' s.line.now).mono
  rintro next t ⟨entries, transmitter, advances, advanced, used⟩
  have alarm : (Event.order (alarmOrder .transmit next)).IsApart := by cases next <;> trivial
  refine ⟨?_, used⟩
  change s.scene.Apart (t.scene.order t.line.now (alarmOrder .transmit next))
  rw [advanced]
  exact ((noted.trans (.withTransmitter _)).trans (.extend advances.apart)).trans (.note alarm _)

theorem ensures_syncWatchdog :
    Ensures allowed use (fun _ => True) (syncWatchdog : Act (Link H d r) Unit)
      (fun _ _ => Scene.Aligned) := by
  intro s _ _
  apply wp_syncWatchdog.mono
  rintro _ t ⟨time, synced, used⟩
  exact ⟨synced ▸ Scene.aligned_sync time, used⟩

theorem ensures_timeOut :
    Ensures allowed use Scene.Sound (timeOut : Act (Link H d r) Unit)
      (fun _ _ => Scene.Aligned) := by
  intro s _ sound
  obtain ⟨receiver, frame, served, _⟩ := sound.receiver.attend .timeout s.line.now
  change s.cell.value.receiver.onTimeout s.line.now = _ at served
  rw [timeOut]
  simp only [WP.bind_iff, wp_readClock, wp_note, wp_getEngine, served, WP.lift_ok_iff,
    wp_setReceiver]
  apply (wp_publish s.line.now frame).mono
  rintro _ t ⟨_, used⟩
  simp only [wp_order, wp_modifyEngine]
  apply (ensures_syncWatchdog _ rfl trivial).mono
  rintro _ u ⟨aligned, used'⟩
  exact ⟨aligned, used'.trans used⟩

/-- An interrupt leaves the alarm in line. -/
theorem ensures_serve (interrupt : Interrupt) :
    Ensures allowed free Scene.Sound (serve interrupt : Act (Link H d r) Unit)
      (fun _ s t => s.Aligned → t.Aligned) := by
  cases interrupt with
  | uart =>
      apply Ensures.critical
      intro s used sound
      have drains : Does allowed (0, true) (fun _ => True)
          (drainReceive serviceLimit : Act (Link H d r) Unit) := .drainReceive trivial _
      have continues : Does allowed (0, true) (fun _ => True)
          (continueFrame : Act (Link H d r) Unit) := .continueFrame trivial
      apply WP.bind (drains s used sound)
      intro _ t moves
      apply WP.bind (continues t (moves.uses.trans used) (moves.sound sound))
      intro _ u moves'
      apply (ensures_syncWatchdog u rfl trivial).mono
      rintro _ v ⟨aligned, used'⟩
      exact ⟨fun _ => aligned, used'.trans (moves'.uses.trans moves.uses)⟩
  | transmitTimer =>
      exact Ensures.critical fun s used sound => (ensures_pace s used sound).mono
        fun _ _ ⟨apart, used'⟩ => ⟨apart.aligned, used'⟩
  | receiveTimeout =>
      exact Ensures.critical fun s used sound => (ensures_timeOut s used sound).mono
        fun _ _ ⟨aligned, used'⟩ => ⟨fun _ => aligned, used'⟩

theorem wp_serve (used : s.uses = free) (sound : s.scene.Sound) (interrupt : Interrupt) :
    WP allowed (serve interrupt) (fun _ t => Moves (· = .interrupt) s t ∧
      (s.scene.Aligned → t.scene.Aligned)) s := by
  have serves : Does allowed free (· = .interrupt) (serve interrupt : Act (Link H d r) Unit) :=
    .serve (by rfl) interrupt
  have aligns : WP allowed (serve interrupt) _ s := ensures_serve interrupt s used sound
  exact (serves s used sound).ran.mono fun _ _ ⟨ended, moves⟩ =>
    ⟨moves, (aligns.elim ended).1⟩

theorem wp_serveRaised (used : s.uses = free) (sound : s.scene.Sound)
    (aligned : s.scene.Aligned) (interrupts : List Interrupt) :
    WP allowed (serveRaised interrupts) (fun _ t => t.uses = free ∧ t.scene.Aligned) s := by
  induction interrupts generalizing s with
  | nil => exact ⟨used, aligned⟩
  | cons interrupt rest ih =>
      rw [serveRaised]
      have raises : WP allowed (onLine (Line.raised interrupt))
          (fun _ t => t.uses = free ∧ t.scene = s.scene) s := ⟨used, rfl⟩
      apply WP.bind raises
      rintro raised t ⟨used', same⟩
      rw [← same] at sound aligned
      rw [WP.ite_iff]
      refine ⟨fun _ => WP.bind (wp_serve used' sound interrupt) ?_, fun _ => ih used' sound aligned⟩
      rintro _ u ⟨moves, keeps⟩
      exact ih (moves.uses.trans used') (moves.sound sound) (keeps aligned)

/-- What is told by the clock in the foreground was read with the alarm in line. -/
theorem wp_foregroundClock_aligned (used : s.uses = free) (sound : s.scene.Sound)
    (aligned : s.scene.Aligned) :
    WP allowed foregroundClock (fun _ t => t.scene.Aligned) s := by
  rw [foregroundClock, WP.bind_iff, WP.get_iff]
  apply WP.bind (wp_serveRaised used sound aligned _)
  rintro _ t ⟨_, aligned'⟩
  exact aligned'

/-- An alarm that is served early, or that finds no frame under construction, leaves the link
as it was: what it disarms is set again. -/
theorem wp_serve_early (used : s.uses = free) (watched : s.scene.Watched)
    (aligned : s.scene.Aligned)
    (early : ∀ deadline, s.engine.watchdog = some deadline → isDue s.line.now deadline = false) :
    WP allowed (serve .receiveTimeout) (fun _ t => s.scene.Stays t.scene) s := by
  have stale : s.engine.receiver.overdue s.line.now = false :=
    Receiver.overdue_eq_false fun deadline pending => early deadline (aligned.trans pending)
  have served : s.engine.receiver.onTimeout s.line.now = .ok (s.engine.receiver, none) := by
    rw [Receiver.onTimeout, stale]
    rfl
  change s.cell.value.receiver.onTimeout s.line.now = _ at served
  rw [serve, wp_critical used, timeOut]
  simp only [WP.bind_iff, wp_readClock, wp_note, wp_getEngine, Line.now] at served ⊢
  simp only [served, WP.lift_ok_iff, wp_setReceiver, publish, WP.pure_iff, wp_order,
    wp_modifyEngine]
  apply wp_syncWatchdog.mono
  rintro _ t ⟨time, synced, _⟩
  change s.scene.Stays t.scene
  rw [synced]
  exact .rearm watched aligned _ _ _ _

end Link

end Dmx512
