import Dmx512.Bench
import Dmx512.Proofs.Node.Runs
import Dmx512.Proofs.Station.Draining

/-!
# A node stops sending

A node that sends and is told to stop, or to turn its line, lets the frame on the wire finish
before it halts the sequencer, for as long as its configuration allows. However interrupts are
served meanwhile, no other frame is begun, and none is lost.
-/

namespace Dmx512.Node

open Act Link

variable {H : Type} [Hardware H] {d r : Nat} {s s₀ : Node H d r} {m : Link H d r}

/-- While a sequence that has run since `s₀` drains, what is written behind its last break is
as much of its frame as the transmitter has counted. -/
theorem Sound.taken_drained {actions : List (Action H)} (sound₀ : s₀.Sound)
    (ran : s₀.run actions = .ok s) (keeps : s₀.KeepsSending actions)
    (sound : s.link.asked.scene.Sound) (drains : Moves (· = .interrupt) s.link.asked m)
    {behind before : Journal} {first : Entry}
    (told : m.line.journal = behind ++ first :: (before ++ s₀.link.line.journal))
    (begins : first.BeginsBreak) (plain : behind.Plain) :
    behind.written = m.engine.transmitter.taken := by
  obtain ⟨runs, _⟩ := sound₀.run_sending ran keeps
  obtain ⟨new, sends⟩ := runs.steps.sends (fun _ => id) sound₀.sound
  have requested : s₀.link.scene.Sends new s.link.asked.scene :=
    sends.withTransmitter rfl rfl rfl
  obtain ⟨new', sends'⟩ := drains.steps.goesOn_sends Scene.Waits.calm sound requested
  have split : new' = behind ++ first :: before := by
    apply (List.append_left_inj s₀.link.line.journal).mp
    rw [List.append_assoc, List.cons_append]
    exact sends'.journal.symm.trans told
  exact (sends'.framed.current behind first before split begins plain).1

variable {station : Station} {target : Direction} {enable : Bool}

/-- Graceful stop. A node that sends and is told to stop or to turn its line may wait for ever,
but it stops with no other fault. Otherwise its sequence is asked to end, drains, and is halted.
From the request on no break is put on the line, and both the frame on the wire and the one that
is queued behind it stay what they were. The halt leaves the sequence idle, its break off the
line, the interrupt of room in the queue masked and the transmit alarm disarmed. A drain that
ended in time ended with a look at the interface that found it empty; any other has lasted as
long as its timeout. Where a break was put on the line since the sequencer runs, the whole frame
on the wire is written behind the last one if the drain ended in time, and a front part of it if
not. -/
theorem Reachable.stops_gracefully (reachable : s.Reachable) (present : s.station = some station)
    (sending : s.link.engine.sending = true) (stops : target = .output → enable = false) :
    (∀ fault, perform (.setDirection target enable) s = .error fault → fault.IsStall) ∧
    ∀ answer t, perform (.setDirection target enable) s = .ok (answer, t) →
      ∃ inTime m halted,
        Attached.Drains (station.config.drainTimeoutFor s.link.engine.transmitter.timing)
          s.link.asked inTime m ∧
        Link.critical Link.halt m = .ok ((), halted) ∧ halted.scene.Rests ∧
        (∃ ahead behind, halted.line.journal = ahead ++ s.link.line.journal ∧
          t.link.line.journal = behind ++ halted.line.journal ∧
          Journal.Plain (behind ++ ahead)) ∧
        t.link.engine.transmitter.wire = s.link.engine.transmitter.wire ∧
        t.link.engine.transmitter.queued = s.link.engine.transmitter.queued ∧
        ∀ (s₀ : Node H d r) actions, s₀.Reachable → s₀.run actions = .ok s →
          s₀.KeepsSending actions → ∀ (behind : Journal) first before,
            m.line.journal = behind ++ first :: (before ++ s₀.link.line.journal) →
            first.BeginsBreak → behind.Plain →
            (inTime = true → behind.written = s.link.engine.transmitter.wire) ∧
            (inTime = false → behind.written <+: s.link.engine.transmitter.wire) := by
  have ready := reachable.sound.ready present
  have stopped : WP Fault.IsStall (perform (.setDirection target enable)) (fun _ t =>
      ∃ inTime m halted,
        Attached.Drains (station.config.drainTimeoutFor s.link.engine.transmitter.timing)
          s.link.asked inTime m ∧
        Link.critical Link.halt m = .ok ((), halted) ∧ halted.scene.Aside t.link.scene) s :=
    (wp_onStation_some present).mpr
      (WP.bind (Attached.wp_setDirection_sending ready sending stops) fun _ _ stopped => stopped)
  refine ⟨fun fault => stopped.allows, fun answer t ended => ?_⟩
  obtain ⟨inTime, m, halted, drains, halts, aside⟩ := stopped.elim ended
  obtain ⟨first, second, third, scene⟩ :=
    (Leads.of_halt (drains.moves.uses.trans ready.free) halts).scene
  have output : m.scene.engine.direction = .output :=
    (Scene.standing_iff.mp (drains.moves.steps.standing_eq nofun)).1.trans
      (Engine.sending_iff.mp sending).1
  have ebbs : s.link.asked.scene.Ebbs m.scene := Scene.Waits.ebbs drains.moves.steps rfl
  have kept : halted.scene.engine.transmitter = m.scene.engine.transmitter.stop := by
    rw [scene, Scene.engine_halt_output output]
  refine ⟨inTime, m, halted, drains, halts, ?_, ?_, ?_, ?_, ?_⟩
  · rw [scene]
    exact Scene.rests_halt output first second third
  · obtain ⟨drained, journal, plain⟩ := ebbs.plain
    obtain ⟨ahead, journal', plain'⟩ := Scene.plain_halt output first second third
    obtain ⟨behind, journal'', topics⟩ := aside.journal
    refine ⟨ahead ++ drained, behind, ?_, journal'', ?_⟩
    · change halted.scene.journal = _
      rw [scene, journal', journal, List.append_assoc]
      rfl
    · exact (Journal.Lacks.of_aside topics (by decide)).plain.append (plain'.append plain)
  · change t.link.scene.engine.transmitter.wire = _
    rw [aside.transmitter, kept]
    exact ebbs.wire
  · change t.link.scene.engine.transmitter.queued = _
    rw [aside.transmitter, kept]
    exact ebbs.queued
  · intro s₀ actions reachable₀ ran keeps behind first before told begins plain
    have written := reachable₀.sound.taken_drained ran keeps (ready.sound_asked sending)
      drains.moves told begins plain
    have wire : m.engine.transmitter.wire = s.link.engine.transmitter.wire := ebbs.wire
    rw [written, ← wire]
    exact ⟨fun inTime => Transmitter.taken_eq_wire_of_not_isBusy (drains.cleared inTime).1,
      fun _ => Transmitter.taken_prefix _⟩

/-- A frame of four bytes is queued at an interface with room for two. -/
def drainingStart : List (Action Bench) :=
  [.disturb (Bench.setStep 44), .disturb (Bench.fitQueue (some 2) 44),
    .perform (.attach { direction := .output }), .perform (.sendData [0, 1, 2, 3])]

/-- A node that is told to receive while its sequence has its break on the line finishes the
frame first. -/
theorem Reachable.stops_gracefully_narrow :
    ∃ (s t : Node Bench 0 0) (m halted : Link Bench 0 0), s.Reachable ∧
      s.link.engine.transmitter.state = .lineBreak ∧
      perform (.setDirection .input true) s = .ok (.done, t) ∧
      Attached.Drains 51000 s.link.asked true m ∧ halted.scene.Rests ∧
      (∃ new : Journal, t.link.line.journal = new ++ s.link.line.journal ∧ new.Plain) ∧
      ∃ (behind earlier : Journal) (first : Entry), m.line.journal = behind ++ first :: earlier ∧
        first.BeginsBreak ∧ behind.written = [0, 1, 2, 3] := by
  have carried : (powerUp { delivers := true } : Node Bench 0 0).Ends drainingStart fun s₀ =>
      s₀.KeepsSending [.perform (.interrupt .transmitTimer)] ∧
      s₀.Ends [.perform (.interrupt .transmitTimer)] fun s =>
        (s.station = some { config := { direction := .output } } ∧
          s.link.engine.sending = true ∧ s.link.engine.transmitter.state = .lineBreak ∧
          s.link.engine.transmitter.wire = [0, 1, 2, 3] ∧
          ({} : Config).drainTimeoutFor s.link.engine.transmitter.timing = 51000) ∧
        (∃ outcome, perform (.setDirection .input true) s = .ok outcome ∧ outcome.1 = .done) ∧
        ∃ drained, Link.waitWhile Attached.transmitBusy 51000 s.link.asked = .ok drained ∧
          drained.1 = true ∧
          drained.2.line.journal = drained.2.line.journal.take 32 ++
            ⟨88, .order (.setBreak true)⟩ ::
              ([⟨44, .transmitAlarm .idle⟩, ⟨44, .clockRead⟩] ++ s₀.link.line.journal) ∧
          Journal.Plain (drained.2.line.journal.take 32) := by
    decide +kernel
  obtain ⟨s₀, started, keeps, s, ran, ⟨present, sending, state, wire, timeout⟩,
    ⟨⟨_, t⟩, ended, rfl⟩, ⟨_, m⟩, drained, rfl, told, plain⟩ := carried
  have reachable₀ : s₀.Reachable := ⟨{ delivers := true }, drainingStart, started⟩
  have reachable : s.Reachable := ⟨{ delivers := true }, _, (run_append started).trans ran⟩
  have turns : Direction.input = .output → true = false := nofun
  obtain ⟨_, stops⟩ := Reachable.stops_gracefully reachable present sending turns
  obtain ⟨inTime, m', halted, drains, _, rests, ⟨ahead, behind, older, newer, plain'⟩, _, _,
    written⟩ := stops .done t ended
  have timeout' : Config.drainTimeoutFor { direction := .output }
      s.link.engine.transmitter.timing = 51000 := timeout
  rw [timeout'] at drains
  cases drained.symm.trans drains.ran
  obtain ⟨whole, _⟩ := written s₀ _ reachable₀ ran keeps _ _ _ told rfl plain
  refine ⟨s, t, m, halted, reachable, state, ended, drains, rests, ⟨behind ++ ahead, ?_, plain'⟩,
    _, _, _, told, rfl, (whole rfl).trans wire⟩
  rw [newer, older, List.append_assoc]

end Dmx512.Node
