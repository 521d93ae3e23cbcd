import Dmx512.Proofs.Link.Sending

/-!
# A sequence that is to end

A sequence that is asked to end finishes the frame on the wire and begins no other, whatever
interrupts are served while the foreground waits for it; the frames that it was given stay
with it. What has been written behind its last break is then the whole frame, once the
transmitter has handed it over, and a front part of it before that. Halted, it leaves the
output at rest.
-/

namespace Dmx512

namespace Transmitter

variable {t t' : Transmitter} {entries : Journal} {now : Micros} {next : Option Micros}

theorem Continues.queued_eq (h : t.Continues entries t') : t'.queued = t.queued := by
  cases h <;> rfl

/-- An alarm of a sequence that is to end begins no frame. -/
theorem Advances.goesOn (h : t.Advances now entries t' next) (last : t.stopping = true)
    (later : Micros) : GoesOn t (t.alarmEntries now entries later next) t' := by
  rcases h.goesOn_or later with goesOn | ⟨more, _⟩
  · exact goesOn
  · rw [last] at more
    contradiction

theorem Advances.queued_eq (h : t.Advances now entries t' next) (last : t.stopping = true) :
    t'.queued = t.queued := by
  cases h with
  | lineBreak _ _ more =>
      rw [last] at more
      contradiction
  | rest | mark | whole | part | overrun => rfl

/-- A frame that is not going out is handed over. -/
theorem taken_eq_wire_of_not_isBusy (rests : t.isBusy = false) : t.taken = t.wire := by
  apply taken_eq_wire
  cases state : t.state with
  | idle => exact .inl rfl
  | interPacket => exact .inr rfl
  | lineBreak | markAfterBreak | data => simp [isBusy, state] at rests

end Transmitter

namespace Scene

variable {d r : Nat} {s m t : Scene d r}

/-- A sequence is to end: from `s` to `t` it begins no frame, and its frames stay with it. -/
structure Ebbs (s t : Scene d r) : Prop where
  plain : ∃ new : Journal, t.journal = new ++ s.journal ∧ new.Plain
  stopping : t.engine.transmitter.stopping = true
  wire : t.engine.transmitter.wire = s.engine.transmitter.wire
  queued : t.engine.transmitter.queued = s.engine.transmitter.queued

namespace Ebbs

theorem refl (last : s.engine.transmitter.stopping = true) : s.Ebbs s :=
  ⟨⟨[], rfl, nofun⟩, last, rfl, rfl⟩

theorem trans (first : s.Ebbs m) (second : m.Ebbs t) : s.Ebbs t := by
  obtain ⟨new, journal, plain⟩ := first.plain
  obtain ⟨more, journal', plain'⟩ := second.plain
  refine ⟨⟨more ++ new, ?_, plain'.append plain⟩, second.stopping,
    second.wire.trans first.wire, second.queued.trans first.queued⟩
  rw [journal', journal, List.append_assoc]

end Ebbs

end Scene

section

variable {d r : Nat} {s m t : Scene d r}

/-- Serving an interrupt begins no frame of a sequence that is to end. -/
theorem Step.ebbs (step : Step .interrupt s t) (last : s.engine.transmitter.stopping = true) :
    s.Ebbs t := by
  rcases step.aside_or with aside | ⟨entries, transmitter, continues, rfl⟩ |
    ⟨now, entries, transmitter, next, later, _, advances, rfl⟩
  · obtain ⟨entries, journal, topics⟩ := aside.journal
    refine ⟨⟨entries, journal, (Journal.Lacks.of_aside topics (by decide)).plain⟩, ?_, ?_, ?_⟩ <;>
      rw [aside.transmitter]
    exact last
  · have goesOn := continues.goesOn
    exact ⟨⟨entries, rfl, goesOn.plain⟩, continues.stopping_eq.trans last, goesOn.wire,
      continues.queued_eq⟩
  · have goesOn := advances.goesOn last later
    refine ⟨⟨_, ?_, goesOn.plain⟩, advances.stopping_eq.trans last, goesOn.wire,
      advances.queued_eq last⟩
    rw [Transmitter.alarmEntries, List.cons_append, List.append_assoc]
    rfl

namespace Scene

/-- While the foreground waits for it, a sequence that is to end begins no frame. -/
theorem Waits.ebbs (waits : s.Waits t) (last : s.engine.transmitter.stopping = true) :
    s.Ebbs t := by
  induction waits with
  | refl => exact .refl last
  | tail _ step ih =>
      obtain ⟨_, rfl, step⟩ := step
      exact ih.trans (step.ebbs ih.stopping)

structure Rests (s : Scene d r) : Prop where
  idle : s.engine.transmitter.state = .idle
  released : s.journal.breakAsserted = false
  masked : s.journal.transmitAllowed = false
  disarmed : s.journal.alarm? .transmit = none

/-- The output is at rest once its sequencer is halted. -/
theorem rests_halt (output : s.engine.direction = .output) (first second third : Micros) :
    (s.halt first second third).Rests := by
  have levels := levels_halt_output output first second third
  refine ⟨?_, congrArg Levels.lineBreak levels, congrArg Levels.transmit levels,
    congrArg Levels.alarm levels⟩
  rw [engine_halt_output output]
  rfl

/-- Halting the output begins no frame. -/
theorem plain_halt (output : s.engine.direction = .output) (first second third : Micros) :
    ∃ new : Journal, (s.halt first second third).journal = new ++ s.journal ∧ new.Plain := by
  rw [halt_output _ _ _ output]
  refine ⟨[⟨third, .order (.cancelAlarm .transmit)⟩, ⟨second, .order (.setBreak false)⟩,
    ⟨first, .order (.allowTransmit false)⟩], rfl, ?_⟩
  simp [Journal.Plain, Entry.BeginsBreak]

/-- A line that is turned to the input leaves the transmit sequence as it is. -/
theorem Turns.aside {enable : Bool} (h : s.Turns .input enable t) : s.Aside t := by
  obtain ⟨driven, time, first, second⟩ := h
  have turned : s.Aside (s.turn driven time .input) :=
    ⟨⟨[⟨time, .turned .input⟩, ⟨driven, .pin Direction.input.pinLevel true⟩], rfl,
      by simp [Event.topic, Event.Topic.IsAside]⟩, rfl⟩
  cases enable with
  | false => exact turned
  | true =>
      refine turned.trans ⟨⟨[⟨second, .order (.allowReceive true)⟩, ⟨first, .order .clearReceive⟩],
        rfl, ?_⟩, rfl⟩
      simp [Event.topic, Event.Topic.IsAside]

end Scene

end

end Dmx512
