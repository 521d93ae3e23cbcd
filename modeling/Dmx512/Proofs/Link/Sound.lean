import Dmx512.Proofs.Link.Step

/-!
# The invariant of a link

Every step keeps receiver and transmitter well-formed, a running sequencer under
a station, and the frame of the next break the one queued last. Only steps of
control change the direction, the sequencer and the station.
-/

namespace Dmx512

open Standard

theorem Engine.sending_iff {e : Engine} :
    e.sending = true ↔ e.direction = .output ∧ e.running = true := by
  rw [sending, Bool.and_eq_true, beq_iff_eq, and_comm]

theorem Engine.receiving_iff {e : Engine} :
    e.receiving = true ↔ e.direction = .input ∧ e.running = true := by
  rw [receiving, Bool.and_eq_true, beq_iff_eq, and_comm]

namespace Scene

variable {d r : Nat} {s t : Scene d r}

@[simp] theorem engine_publish (time : Micros) (frame : Option Frame) :
    (s.publish time frame).engine = s.engine := by
  rcases frame with - | frame | frame <;> rfl

/-- The direction, whether its sequencer runs and whether a station is attached. -/
def standing (s : Scene d r) : Direction × Bool × Bool :=
  (s.engine.direction, s.engine.running, s.engine.attached)

theorem standing_iff {direction : Direction} {running attached : Bool} :
    s.standing = (direction, running, attached) ↔
      s.engine.direction = direction ∧ s.engine.running = running ∧
        s.engine.attached = attached := by
  simp [standing]

theorem sending_of_standing (h : t.standing = s.standing) :
    t.engine.sending = s.engine.sending := by
  obtain ⟨direction, running, _⟩ := standing_iff.mp h
  rw [Engine.sending, direction, running, Engine.sending]

@[simp] theorem standing_sync (time : Micros) : (s.sync time).standing = s.standing := by
  rw [sync]
  split <;> rfl

@[simp] theorem standing_start (first second : Micros) :
    (s.start first second).standing = (s.engine.direction, true, s.engine.attached) := by
  cases direction : s.engine.direction with
  | input => rw [start_input _ _ direction, ← direction]; rfl
  | output => rw [start_output _ _ direction, ← direction]; rfl

@[simp] theorem standing_halt (first second third : Micros) :
    (s.halt first second third).standing = (s.engine.direction, false, s.engine.attached) := by
  cases direction : s.engine.direction with
  | input =>
      have synced := standing_sync (s := (s.order first (.allowReceive false)).withReceiver
        s.engine.receiver.reset) second
      rw [halt_input _ _ _ direction]
      simp only [standing, Prod.mk.injEq] at synced ⊢
      exact ⟨synced.1.trans direction, rfl, synced.2.2⟩
  | output => rw [halt_output _ _ _ direction, ← direction]; rfl

theorem queued_order (time : Micros) (order : Order) :
    (s.order time order).journal.queued = s.journal.queued :=
  Journal.queued_cons (by cases order <;> simp [Event.topic])

theorem queued_publish (time : Micros) (frame : Option Frame) :
    (s.publish time frame).journal.queued = s.journal.queued := by
  rcases frame with - | frame | frame <;> rfl

theorem queued_sync (time : Micros) : (s.sync time).journal.queued = s.journal.queued := by
  rw [sync]
  split
  · rfl
  · exact queued_order _ _

theorem queued_start (first second : Micros) :
    (s.start first second).journal.queued = s.journal.queued := by
  rw [start]
  split <;> rfl

theorem queued_halt (first second third : Micros) :
    (s.halt first second third).journal.queued = s.journal.queued := by
  rw [halt]
  split
  · exact queued_sync (s := (s.order first (.allowReceive false)).withReceiver
      s.engine.receiver.reset) second
  · rfl

/-- What holds of a link at all times. -/
structure Sound (s : Scene d r) : Prop where
  receiver : s.engine.receiver.WellFormed
  transmitter : s.engine.transmitter.WellFormed
  attached : s.engine.running = true → s.engine.attached = true
  latest : s.engine.transmitter.next = s.journal.latestFrame

namespace Sound

theorem extend (h : s.Sound) {entries : Journal} (lacks : Journal.Lacks .queue entries) :
    (s.extend entries).Sound :=
  ⟨h.receiver, h.transmitter, h.attached,
    h.latest.trans (Journal.latestFrame_append lacks).symm⟩

theorem note (h : s.Sound) {event : Event} (other : event.topic ≠ .queue) (time : Micros) :
    (s.note time event).Sound :=
  h.extend (.cons other (.nil _))

theorem order (h : s.Sound) (time : Micros) (order : Order) : (s.order time order).Sound :=
  h.note (by cases order <;> simp [Event.topic]) time

theorem withReceiver (h : s.Sound) {receiver : Receiver} (wf : receiver.WellFormed) :
    (s.withReceiver receiver).Sound :=
  ⟨wf, h.transmitter, h.attached, h.latest⟩

theorem withTransmitter (h : s.Sound) {t : Transmitter} (wf : t.WellFormed)
    (next : t.next = s.engine.transmitter.next) : (s.withTransmitter t).Sound :=
  ⟨h.receiver, wf, h.attached, next.trans h.latest⟩

theorem publish (h : s.Sound) (time : Micros) (frame : Option Frame) :
    (s.publish time frame).Sound := by
  rcases frame with - | frame | frame <;>
    exact ⟨h.receiver, h.transmitter, h.attached, h.latest⟩

theorem watch (h : s.Sound) (time : Micros) (watchdog : Option Micros) :
    (s.watch time watchdog).Sound := by
  have ordered := h.order time (alarmOrder .receiveTimeout watchdog)
  exact ⟨ordered.receiver, ordered.transmitter, ordered.attached, ordered.latest⟩

theorem sync (h : s.Sound) (time : Micros) : (s.sync time).Sound := by
  rw [Scene.sync]
  split
  · exact h
  · exact h.watch time _

theorem stopped (h : s.Sound) : (s.withRunning false).Sound :=
  ⟨h.receiver, h.transmitter, nofun, h.latest⟩

theorem start (h : s.Sound) (attached : s.engine.attached = true) (first second : Micros) :
    (s.start first second).Sound := by
  rw [Scene.start]
  split
  · exact ⟨.reset _, h.transmitter, fun _ => attached, h.latest⟩
  · refine ⟨h.receiver, ?_, fun _ => attached, h.latest⟩
    exact .of_state .idle h.transmitter.wire h.transmitter.queued rfl (by decide)

theorem halt (h : s.Sound) (first second third : Micros) :
    (s.halt first second third).Sound := by
  rw [Scene.halt]
  split
  · exact (((h.order first _).withReceiver (.reset _)).sync second).stopped
  · have wf : s.engine.transmitter.stop.WellFormed :=
      .of_state .idle h.transmitter.wire h.transmitter.queued rfl (by decide)
    exact ((((h.order first _).order second _).withTransmitter wf rfl).order third _).stopped

end Sound

end Scene

theorem Hands.lacks {bytes : List UInt8} {entries : Journal} (h : Hands bytes entries)
    {topic : Event.Topic} (other : topic ≠ .byte ∧ topic ≠ .other) :
    Journal.Lacks topic entries := by
  intro entry mem
  rcases h.only entry mem with ⟨_, event⟩ | ⟨_, event⟩
  · rw [event]
    exact fun h => other.2 h.symm
  · rw [event]
    exact fun h => other.1 h.symm

namespace Transmitter

variable {t t' : Transmitter} {entries : Journal}

theorem Continues.wellFormed (h : t.Continues entries t') (wf : t.WellFormed) :
    t'.WellFormed := by
  cases h with
  | whole => exact ⟨wf.wire, wf.queued, fun _ => Nat.le_refl _⟩
  | part _ short => exact ⟨wf.wire, wf.queued, fun _ => Nat.le_of_lt short⟩

theorem Continues.next_eq (h : t.Continues entries t') : t'.next = t.next := by
  cases h <;> rfl

theorem Continues.lacks (h : t.Continues entries t') {topic : Event.Topic}
    (other : topic ≠ .byte ∧ topic ≠ .other) : Journal.Lacks topic entries := by
  cases h with
  | whole _ _ hands => exact .cons (fun h => other.2 h.symm) (hands.lacks other)
  | part _ _ hands => exact hands.lacks other

variable {now : Micros} {next : Option Micros}

theorem Advances.wellFormed (h : t.Advances now entries t' next) (wf : t.WellFormed) :
    t'.WellFormed := by
  cases h with
  | rest => exact .of_state .idle wf.wire wf.queued rfl (by decide)
  | lineBreak _ _ _ begun =>
      obtain ⟨timing, begins⟩ := t.beginFrame_ok now
      rw [begins] at begun
      cases begun
      exact .of_state .lineBreak wf.next nofun rfl (by decide)
  | mark => exact .of_state .markAfterBreak wf.wire wf.queued rfl (by decide)
  | whole => exact .of_state .interPacket wf.wire wf.queued rfl (by decide)
  | part _ _ short => exact ⟨wf.wire, wf.queued, fun _ => Nat.le_of_lt short⟩
  | overrun phase => exact ⟨wf.wire, wf.queued, fun _ => wf.sent phase⟩

theorem Advances.next_eq (h : t.Advances now entries t' next) : t'.next = t.next := by
  cases h with
  | lineBreak _ _ _ begun =>
      obtain ⟨timing, begins⟩ := t.beginFrame_ok now
      rw [begins] at begun
      cases begun
      rfl
  | rest | mark | whole | part | overrun => rfl

theorem Advances.lacks (h : t.Advances now entries t' next) {topic : Event.Topic}
    (other : topic ≠ .byte ∧ topic ≠ .other ∧ topic ≠ .lineBreak) :
    Journal.Lacks topic entries := by
  cases h with
  | rest | overrun => exact .nil _
  | lineBreak | mark => exact .cons (fun same => other.2.2 same.symm) (.nil _)
  | whole _ hands => exact hands.lacks ⟨other.1, other.2.1⟩
  | part _ _ _ hands =>
      exact .cons (fun same => other.2.1 same.symm) (hands.lacks ⟨other.1, other.2.1⟩)

end Transmitter

section

variable {d r : Nat} {kind : Step.Kind} {kinds : Step.Kind → Prop} {s s' : Scene d r}

/-- Whatever happens to a link keeps its invariant. -/
theorem Step.sound (step : Step kind s s') (h : s.Sound) : s'.Sound := by
  cases step with
  | readClock | sample | refuse => exact h.note (by simp [Event.topic]) _
  | setBreak | write | paceIdle => exact h.order _ _
  | @hear _ signal time _ _ receiving heard =>
      obtain ⟨_, _, attended, wf⟩ := h.receiver.attend (.signal signal) time
      cases attended.symm.trans heard
      exact ((h.note (by simp [Event.topic]) _).withReceiver wf).publish _ _
  | @timeOut _ time _ _ later served =>
      obtain ⟨_, _, attended, wf⟩ := h.receiver.attend .timeout time
      cases attended.symm.trans served
      exact (((h.note (by simp [Event.topic]) _).withReceiver wf).publish _ _).watch _ _
  | sync => exact h.sync _
  | resume continues =>
      exact (h.withTransmitter (continues.wellFormed h.transmitter) continues.next_eq).extend
        (continues.lacks (by decide))
  | pace later sending advances =>
      have wf := advances.wellFormed h.transmitter
      exact (((h.note (by simp [Event.topic]) _).withTransmitter wf advances.next_eq).extend
        (advances.lacks (by decide))).order _ _
  | @queue _ frame _ time queued =>
      obtain ⟨short, timing, rfl⟩ := Transmitter.eq_of_queue queued
      refine ⟨h.receiver, ⟨h.transmitter.wire, ?_, h.transmitter.sent⟩, h.attached,
        (Journal.latestFrame_queued time frame).symm⟩
      exact fun _ eq => Option.some_inj.mp eq ▸ short
  | configure configured =>
      obtain ⟨timing, configures⟩ := s.engine.transmitter.configure_ok _
      cases configures.symm.trans configured
      exact h.withTransmitter ⟨h.transmitter.wire, h.transmitter.queued, h.transmitter.sent⟩ rfl
  | takeDmx | takeRdm | flush => exact ⟨h.receiver, h.transmitter, h.attached, h.latest⟩
  | claim => exact ⟨h.receiver, h.transmitter, fun _ => rfl, h.latest⟩
  | release stopped =>
      exact ⟨h.receiver, h.transmitter, fun running => by simp [stopped] at running, h.latest⟩
  | turn => exact ⟨h.receiver, h.transmitter, h.attached, h.latest⟩
  | requestStop =>
      exact h.withTransmitter ⟨h.transmitter.wire, h.transmitter.queued, h.transmitter.sent⟩ rfl
  | start first second attached => exact h.start attached first second
  | halt first second third => exact h.halt first second third

theorem Steps.sound (steps : Steps kinds s s') (h : s.Sound) : s'.Sound := by
  induction steps with
  | refl => exact h
  | tail _ step ih =>
      obtain ⟨_, _, step⟩ := step
      exact step.sound ih

/-- Only control changes the direction, the sequencer and the station. -/
theorem Step.standing_eq (step : Step kind s s') (other : kind ≠ .control) :
    s'.standing = s.standing := by
  cases step with
  | claim | release | refuse | turn | requestStop | start | halt => contradiction
  | sync time => exact Scene.standing_sync time
  | hear | timeOut => simp [Scene.standing, Scene.watch, Scene.order, Scene.note,
      Scene.withReceiver]
  | readClock | sample | resume | pace | paceIdle | queue | configure | takeDmx | takeRdm | flush
  | setBreak | write => rfl

/-- Only the queueing of a frame changes what was queued. -/
theorem Step.queued_eq (step : Step kind s s') (other : kind ≠ .queue) :
    s'.journal.queued = s.journal.queued := by
  cases step with
  | queue => contradiction
  | resume continues => exact Journal.queued_append (continues.lacks (by decide))
  | pace later sending advances =>
      exact (Scene.queued_order _ _).trans (Journal.queued_append (advances.lacks (by decide)))
  | readClock | sample | configure | takeDmx | takeRdm | flush | claim | release | refuse | turn
  | requestStop => rfl
  | paceIdle | setBreak | write => exact Scene.queued_order _ _
  | hear => exact Scene.queued_publish _ _
  | timeOut => exact (Scene.queued_order _ _).trans (Scene.queued_publish _ _)
  | sync time => exact Scene.queued_sync time
  | start first second => exact Scene.queued_start first second
  | halt first second third => exact Scene.queued_halt first second third

theorem Steps.queued_eq (steps : Steps kinds s s') (others : ¬ kinds .queue) :
    s'.journal.queued = s.journal.queued := by
  induction steps with
  | refl => rfl
  | tail _ step ih =>
      obtain ⟨kind, within, step⟩ := step
      exact (step.queued_eq fun queue => others (queue ▸ within)).trans ih

theorem Steps.standing_eq (steps : Steps kinds s s') (others : ¬ kinds .control) :
    s'.standing = s.standing := by
  induction steps with
  | refl => rfl
  | tail _ step ih =>
      obtain ⟨kind, allowed, step⟩ := step
      exact (step.standing_eq fun control => others (control ▸ allowed)).trans ih

end

end Dmx512
