import Dmx512.Bench
import Dmx512.Proofs.Link.Framing
import Dmx512.Proofs.Node.Runs

/-!
# Frame atomicity

Whatever is queued, served, read and waited for while the sequencer of the output
keeps running, and however the interface makes room: between two breaks in a row
exactly the frame queued last before the first of them is written.
-/

namespace Dmx512

open Act

variable {H : Type} [Hardware H] {d r : Nat}

namespace Link

variable {allowed : Fault → Prop} {s : Link H d r}

/-- A transmit alarm that finds bytes of the frame waiting counts an overrun and sets
the next alarm. -/
theorem wp_lateAlarm (used : s.uses = free) (sound : s.scene.Sound)
    (sending : s.cell.value.sending = true) (phase : s.cell.value.transmitter.state = .data) :
    WP allowed (serve .transmitTimer)
      (fun _ t =>
        t.cell.value = { s.cell.value with transmitter := s.cell.value.transmitter.overrun } ∧
        ∃ read later deadline, t.line.journal =
          ⟨later, .order (.setAlarm .transmit deadline)⟩ :: ⟨read, .transmitAlarm .data⟩ ::
            ⟨read, .clockRead⟩ :: s.line.journal) s := by
  obtain ⟨wait, later⟩ := sound.transmitter.catchUpTime phase
  have later' : s.cell.value.transmitter.overrun.catchUpTime = .ok wait := later
  rw [serve, wp_critical used, pace]
  simp only [WP.bind_iff, wp_getEngine, WP.ite_iff, sending, phase, wp_readClock, wp_note, advance,
    awaitData, wp_modifyTransmitter, wp_getTransmitter, later', WP.lift_ok_iff, WP.pure_iff,
    setPace_eq, wp_order]
  exact ⟨fun _ => ⟨rfl, _, _, _, rfl⟩, fun idle => absurd trivial idle⟩

end Link

namespace Node

variable {s t : Node H d r} {actions : List (Action H)}

/-- A late alarm at a node that sends is served, counts one overrun, sets the next
alarm and does nothing else. -/
theorem Sound.lateAlarm (h : s.Sound) (sending : s.link.engine.sending = true)
    (phase : s.link.engine.transmitter.state = .data) :
    ∃ t, perform (.interrupt .transmitTimer) s = .ok (.done, t) ∧
      t.link.engine = { s.link.engine with transmitter := s.link.engine.transmitter.overrun } ∧
      ∃ read later deadline, t.link.line.journal =
        ⟨later, .order (.setAlarm .transmit deadline)⟩ :: ⟨read, .transmitAlarm .data⟩ ::
          ⟨read, .clockRead⟩ :: s.link.line.journal := by
  have serves : WP (fun _ => False) (perform (.interrupt .transmitTimer)) (fun answer t =>
      answer = .done ∧
      t.link.engine = { s.link.engine with transmitter := s.link.engine.transmitter.overrun } ∧
      ∃ read later deadline, t.link.line.journal =
        ⟨later, .order (.setAlarm .transmit deadline)⟩ :: ⟨read, .transmitAlarm .data⟩ ::
          ⟨read, .clockRead⟩ :: s.link.line.journal) s := by
    rw [perform, WP.bind_iff, wp_onLink]
    exact (Link.wp_lateAlarm h.free h.sound sending phase).mono fun _ _ served => ⟨rfl, served⟩
  obtain ⟨answer, t, ended, rfl, served⟩ := serves.exists_ok
  exact ⟨t, ended, served⟩

/-- Frames are atomic on the wire. During a run that keeps sending, exactly the frame
queued last before the first of two breaks in a row is written between them, and
behind the last break a front part of such a frame; the frames queued are those
that the run was given to send, in their order. An alarm that finds bytes of a
frame waiting counts one overrun, of which there are no others, and sets the next
alarm, and that is all it does. -/
theorem Reachable.sends_whole_frames (reachable : s.Reachable) (ran : s.run actions = .ok t)
    (sends : s.KeepsSending actions) :
    (∃ new : Journal, t.link.line.journal = new ++ s.link.line.journal ∧
      Journal.WholeBetween s.link.line.journal new ∧
      Journal.WholeSoFar s.link.line.journal new ∧
      t.link.engine.transmitter.overruns =
        s.link.engine.transmitter.overruns + UInt32.ofNat (Journal.lateAlarms new) ∧
      Journal.Rearms new) ∧
    t.link.line.journal.queued =
      s.link.line.journal.queued ++ actions.flatMap Action.frames ∧
    (t.link.engine.transmitter.state = .data →
      ∃ u, perform (.interrupt .transmitTimer) t = .ok (.done, u) ∧
        u.link.engine = { t.link.engine with transmitter := t.link.engine.transmitter.overrun } ∧
        ∃ read later deadline, u.link.line.journal =
          ⟨later, .order (.setAlarm .transmit deadline)⟩ :: ⟨read, .transmitAlarm .data⟩ ::
            ⟨read, .clockRead⟩ :: t.link.line.journal) := by
  obtain ⟨moves, queued⟩ := reachable.sound.run_sending ran sends
  obtain ⟨new, sent⟩ := moves.steps.sends (fun _ => id) reachable.sound.sound
  have part : t.link.engine.transmitter.taken <+: t.link.engine.transmitter.wire :=
    Transmitter.taken_prefix _
  have sending : t.link.engine.sending = true := by
    apply sends actions.length t
    rw [List.take_length]
    exact ran
  exact ⟨⟨new, sent.journal, sent.framed.between, sent.framed.soFar part, sent.overruns,
      sent.rearms⟩, queued, (reachable.sound.run ran).lateAlarm sending⟩

/-- A frame queued, and the sequencer started, at an interface with room for a byte. -/
def narrowStart : List (Action Bench) :=
  [.disturb (Bench.fitQueue (some 1) 0), .perform (.attach {}), .perform (.sendData [0, 7]),
    .perform (.setDirection .output true)]

/-- A frame with a late alarm, and another queued while it goes out. -/
def narrowRun : List (Action Bench) :=
  [.perform (.interrupt .transmitTimer), .perform (.sendSlots [9]),
    .perform (.interrupt .transmitTimer), .perform (.interrupt .transmitTimer),
    .perform (.interrupt .transmitTimer), .disturb (Bench.drain 1), .perform (.interrupt .uart),
    .perform (.interrupt .transmitTimer)]

theorem Reachable.sends_whole_frames_narrow :
    ∃ s t : Node Bench 0 0, s.Reachable ∧ s.run narrowRun = .ok t ∧ s.KeepsSending narrowRun ∧
      t.link.engine.transmitter.overruns = 1 ∧ t.link.line.journal.written = [0, 7] ∧
      t.link.line.journal.queued = [[0, 7], [0, 9]] ∧
      ∃ new : Journal, t.link.line.journal = new ++ s.link.line.journal ∧
        Journal.WholeBetween s.link.line.journal new ∧ Journal.WholeSoFar s.link.line.journal new ∧
        Journal.Rearms new := by
  have carried : (powerUp {} : Node Bench 0 0).Ends narrowStart fun s =>
      s.KeepsSending narrowRun ∧ s.Ends narrowRun fun t =>
        t.link.engine.transmitter.overruns = 1 ∧ t.link.line.journal.written = [0, 7] ∧
          t.link.line.journal.queued = [[0, 7], [0, 9]] := by
    decide +kernel
  obtain ⟨s, started, sends, t, ran, overruns, written, queued⟩ := carried
  have reachable : s.Reachable := ⟨{}, narrowStart, started⟩
  obtain ⟨⟨new, journal, between, soFar, _, rearms⟩, _⟩ :=
    Reachable.sends_whole_frames reachable ran sends
  exact ⟨s, t, reachable, ran, sends, overruns, written, queued, new, journal, between, soFar,
    rearms⟩

end Node

end Dmx512
