import Dmx512.Proofs.Bench.Twins
import Dmx512.Proofs.Node.Spacing
import Dmx512.Proofs.Node.Twins

/-!
# Sessions on a clock that is ahead

A session does not depend on where its clock stands. Where the clock is ahead by an offset, and
set ahead wherever it is set, the same is answered, published, counted and measured, and the
hardware is given the same orders at times that are ahead by the offset. So nothing is special
about the reading at which the clock wraps. The end of the latest RDM frame is ahead only once
there was one, so that nothing may be sent by hand before.
-/

namespace Dmx512.Node

open Link

variable {H : Type} [Hardware H] {d r : Nat} {twins : Twins H} {standing : Standing}
variable {s s' : Node H d r}

structure Ahead (offset : Micros) (s s' : Node H d r) : Prop where
  clock : s'.link.line.now = s.link.line.now + offset
  receiver : s.link.engine.receiver.Ahead offset s'.link.engine.receiver
  transmitter : s.link.engine.transmitter.Ahead offset s'.link.engine.transmitter
  direction : s'.link.engine.direction = s.link.engine.direction
  running : s'.link.engine.running = s.link.engine.running
  attached : s'.link.engine.attached = s.link.engine.attached
  watchdog : s'.link.engine.watchdog = s.link.engine.watchdog.map (· + offset)
  counters : s'.link.counters = s.link.counters.later (s.dating offset)
  station : s'.station = s.station.map (Station.later offset)
  dmxStore : s'.link.dmxStore = s.link.dmxStore
  rdmStore : s'.link.rdmStore = s.link.rdmStore
  journal : s.link.line.journal.Ahead offset s'.link.line.journal
  publications : s'.link.line.journal.publications = s.link.line.journal.publications
  alarms (alarm : Alarm) : s'.link.line.journal.alarm? alarm =
    (s.link.line.journal.alarm? alarm).map (· + offset)

theorem Beside.ahead (h : Beside twins standing s s') : s.Ahead twins.offset s' where
  clock := h.2.now
  receiver := h.2.engine.receiver
  transmitter := h.2.engine.transmitter
  direction := h.2.engine.same.1
  running := h.2.engine.same.2.1
  attached := h.2.engine.same.2.2
  watchdog := h.2.engine.watchdog
  counters := h.2.counters
  station := h.1
  dmxStore := h.2.dmxStore
  rdmStore := h.2.rdmStore
  journal := h.2.journal
  publications := h.2.journal.publications
  alarms := h.2.journal.alarm?

/-- A session on a clock that is ahead is the same session: step by step it answers the same, and
leaves a node that is ahead. If it stops, both stop at the same step. -/
theorem Parallel.transcript_ahead {hardware hardware' : H} {actions actions' : List (Action H)}
    (alike : twins.alike false hardware hardware')
    (parallel : Parallel twins (powerUp hardware : Node H d r) actions actions') :
    (∀ told, (powerUp hardware : Node H d r).transcript actions = .ok told →
      ∃ told', (powerUp hardware' : Node H d r).transcript actions' = .ok told' ∧
        List.Forall₂ (fun step step' =>
          step'.1 = step.1.map (Answer.later (step.2.dating twins.offset)) ∧
            step.2.Ahead twins.offset step'.2) told told') ∧
      ∀ fault, (powerUp hardware : Node H d r).transcript actions = .error fault →
        (powerUp hardware' : Node H d r).transcript actions' = .error fault := by
  have both := parallel.told (.powerUp hardware) (.powerUp alike)
  refine ⟨fun told done => ?_, fun fault stopped => both.exists_error stopped⟩
  obtain ⟨told', done', steps⟩ := both.exists_ok done
  exact ⟨told', done', steps.imp fun _ _ ⟨same, _, beside⟩ => ⟨same, beside.ahead⟩⟩

/-- A node whose clock is set hears a message, and sends one behind it. -/
def conversation (clock : Micros) : List (Action Bench) :=
  (.disturb (Bench.setClock clock) :: heardMessage) ++
    [.perform (.sendMessage shortMessage 500), .perform .counters]

/-- The clock wraps while the second node hears the message. -/
theorem Parallel.transcript_ahead_wrap :
    ∃ told told', (powerUp {} : Node Bench 0 0).transcript (conversation 0) = .ok told ∧
      (powerUp { clock := 0xFFFFFE00 } : Node Bench 0 0).transcript (conversation 0xFFFFFE00) =
        .ok told' ∧
      told.length = 8 ∧
      List.Forall₂ (fun step step' =>
        step'.1 = step.1.map (Answer.later (step.2.dating 0xFFFFFE00)) ∧
          step.2.Ahead 0xFFFFFE00 step'.2) told told' := by
  have carried : (powerUp {} : Node Bench 0 0).Ends (.disturb (Bench.setClock 0) :: heardMessage)
      fun s => s.link.line.journal.rdmEnd?.isSome = true := by
    decide +kernel
  have ends : ∃ told, (powerUp {} : Node Bench 0 0).transcript (conversation 0) = .ok told ∧
      told.length = 8 := by
    decide +kernel
  obtain ⟨s, ran, published⟩ := carried
  have front : Parallel (Bench.twins 0xFFFFFE00 false) (powerUp {} : Node Bench 0 0)
      (.disturb (Bench.setClock 0) :: heardMessage)
      (.disturb (Bench.setClock 0xFFFFFE00) :: heardMessage) := by
    have start (listening : Bool) (b b' : Bench) (h : Bench.Alike 0xFFFFFE00 false listening b b') :
        Bench.Alike 0xFFFFFE00 false listening (b.setClock 0) (b'.setClock 0xFFFFFE00) := by
      simpa using h.setClock 0
    exact .of_beside (.cons (.disturb start)
      (.cons (.disturb fun _ _ _ h => Bench.Alike.setStep h _) (.cons (.perform fun _ => rfl)
      (.cons (.disturb fun _ _ _ h => Bench.Alike.receiveBreak h)
      (.cons (.disturb fun _ _ _ h => Bench.Alike.receive h _ _)
      (.cons (.perform fun _ => rfl) .nil)))))) _
  have parallel : Parallel (Bench.twins 0xFFFFFE00 false) (powerUp {} : Node Bench 0 0)
      (conversation 0) (conversation 0xFFFFFE00) := by
    refine front.append fun t reached => ?_
    obtain rfl : s = t := Except.ok.inj (ran.symm.trans reached)
    exact .perform (fun _ => .inr published) fun _ _ _ =>
      .of_beside (.cons (.perform fun _ => rfl) .nil) _
  have alike : (Bench.twins 0xFFFFFE00 false).alike false {} { clock := 0xFFFFFE00 } := .unused 0
  obtain ⟨told, done, length⟩ := ends
  obtain ⟨told', done', ahead⟩ := (Parallel.transcript_ahead alike parallel).1 told done
  exact ⟨told, told', done, done', length, ahead⟩

end Dmx512.Node
