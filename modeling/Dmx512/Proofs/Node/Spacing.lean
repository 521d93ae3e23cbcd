import Dmx512.Proofs.Link.Spacing
import Dmx512.Proofs.Node.Cadence
import Dmx512.Proofs.Node.Sending

/-!
# The spacing of frames sent by hand

What a node sends by hand keeps the spacing to the RDM frame that was the latest when the
operation began. The receiver hears on while the operation waits, and the end of a frame
that it completes then is not looked at again: the break may follow such a frame at once.
-/

namespace Dmx512.Node

open Act Standard

variable {H : Type} [Hardware H] {d r : Nat} {s t : Node H d r}
variable {station : Station} {operation : Operation} {dispatch : Dispatch} {answer : Answer}

/-- A node knows when the latest RDM frame ended that its journal tells of. -/
theorem Reachable.dated (reachable : s.Reachable) : s.link.scene.Dated := by
  obtain ⟨hardware, steps⟩ := reachable.steps
  have none_yet : (powerUp hardware : Node H d r).link.scene.Dated := nofun
  exact steps.dated none_yet

/-- The spacing is kept to what was heard before. Whenever an operation that sends by hand,
with a spacing of no more than half of the range of the clock, puts a break or a byte on the
line, the spacing has passed since the end of the latest RDM frame that was published before
the operation began, however interrupts are served meanwhile. A response keeps 176 us. -/
theorem Reachable.keeps_spacing (reachable : s.Reachable) (present : s.station = some station)
    (asks : operation.dispatch? station.transaction = some dispatch)
    (small : dispatch.spacing.toNat ≤ 2147483648)
    (ended : perform operation s = .ok (answer, t)) {new since earlier : Journal}
    {ending : Micros} {message : RdmFrame}
    (journal : t.link.line.journal = new ++ s.link.line.journal)
    (heard : s.link.line.journal = since ++ ⟨ending, .published (.rdm message)⟩ :: earlier)
    (latest : since.rdmEnd? = none) :
    ∀ (later before : Journal) (entry : Entry), new = later ++ entry :: before →
      (entry.event.topic = .lineBreak ∨ entry.event.topic = .byte) →
      dispatch.spacing.toNat ≤ Journal.duration
        (entry :: (before ++ since ++ [⟨ending, .published (.rdm message)⟩])) := by
  rintro later before entry rfl shown
  have ready := reachable.sound.ready present
  obtain ⟨outcome, b, rfl, rfl, dispatches⟩ :=
    (reachable.sound.wp_dispatch present asks fun _ _ _ => Link.mayWait_isStall).elim ended
  exact dispatches.leads.scene.spaced ready.toSteady ready.attached reachable.dated small journal
    shown heard latest

/-- A node hears a message; its clock moves by 100 us a reading. -/
def heardMessage : List (Action Bench) :=
  [.disturb (Bench.setStep 100), .perform (.attach {}), .disturb Bench.receiveBreak,
    .disturb (Bench.receive (Message.packet shortMessage) 1), .perform (.interrupt .uart)]

theorem Reachable.keeps_spacing_message :
    ∃ s t : Node Bench 0 0, s.Reachable ∧
      perform (.sendMessage shortMessage 500) s = .ok (.transaction 0, t) ∧
      ∃ (since earlier : Journal) (ending : Entry),
        s.link.line.journal = since ++ ending :: earlier ∧
        ending = ⟨2600, .published (.rdm { data := Message.packet shortMessage })⟩ ∧
        ∀ (later before : Journal) (entry : Entry),
          s.since t = later ++ entry :: before →
          (entry.event.topic = .lineBreak ∨ entry.event.topic = .byte) →
          500 ≤ Journal.duration (entry :: (before ++ since ++ [ending])) := by
  have carried : (powerUp {} : Node Bench 0 0).Ends heardMessage fun s =>
      s.station = some { config := {} } ∧
      s.link.line.journal = s.link.line.journal.take 1 ++
        ⟨2600, .published (.rdm { data := Message.packet shortMessage })⟩ ::
          s.link.line.journal.drop 2 ∧
      Journal.rdmEnd? (s.link.line.journal.take 1) = none ∧
      ∃ outcome, perform (.sendMessage shortMessage 500) s = .ok outcome ∧
        outcome.1 = .transaction 0 ∧
        outcome.2.link.line.journal = s.since outcome.2 ++ s.link.line.journal := by
    decide +kernel
  obtain ⟨s, ran, present, heard, latest, ⟨_, t⟩, sent, rfl, journal⟩ := carried
  have reachable : s.Reachable := ⟨{}, heardMessage, ran⟩
  have asks : (Operation.sendMessage shortMessage 500).dispatch? 0 = some _ := rfl
  exact ⟨s, t, reachable, sent, _, _, _, heard, rfl,
    Reachable.keeps_spacing reachable present asks (by decide) sent journal heard latest⟩

/-- A message waits in the receive queue of a node whose interrupts are served at the
readings of the foreground. -/
def waitingMessage : List (Action Bench) :=
  [.disturb (Bench.setStep 1), .disturb (Bench.setClock 1000000), .perform (.attach {}),
    .disturb Bench.receiveBreak, .disturb (Bench.receive (Message.packet shortMessage) 1)]

/-- Where the receiver completes a frame while an operation waits, the break follows 2 us
behind the end of that frame, with a spacing of 176 us asked for. -/
theorem break_at_once_behind_heard :
    ∃ s t : Node Bench 0 0, s.Reachable ∧
      perform (.sendMessage shortMessage 176) s = .ok (.transaction 0, t) ∧
      ∃ later between before : Journal,
        s.since t = later ++ ⟨1000028, .order (.setBreak true)⟩ ::
          (between ++ ⟨1000026, .published (.rdm { data := Message.packet shortMessage })⟩ ::
            before) ∧
        between.rdmEnd? = none ∧
        t.link.counters.rdmReceiveEnd = 1000026 ∧
        ¬ 176 ≤ Journal.duration (⟨1000028, .order (.setBreak true)⟩ :: (between ++
          [⟨1000026, .published (.rdm { data := Message.packet shortMessage })⟩])) := by
  have carried : (powerUp { delivers := true } : Node Bench 0 0).Ends waitingMessage fun s =>
      ∃ outcome, perform (.sendMessage shortMessage 176) s = .ok outcome ∧
        outcome.1 = .transaction 0 ∧
        s.since outcome.2 = (s.since outcome.2).take 331 ++
          ⟨1000028, .order (.setBreak true)⟩ :: (((s.since outcome.2).drop 332).take 5 ++
            ⟨1000026, .published (.rdm { data := Message.packet shortMessage })⟩ ::
              (s.since outcome.2).drop 338) ∧
        Journal.rdmEnd? (((s.since outcome.2).drop 332).take 5) = none ∧
        outcome.2.link.counters.rdmReceiveEnd = 1000026 ∧
        ¬ 176 ≤ Journal.duration (⟨1000028, .order (.setBreak true)⟩ ::
          (((s.since outcome.2).drop 332).take 5 ++
            [⟨1000026, .published (.rdm { data := Message.packet shortMessage })⟩])) := by
    decide +kernel
  obtain ⟨s, ran, ⟨_, t⟩, sent, rfl, shape, latest, known, short⟩ := carried
  exact ⟨s, t, ⟨{ delivers := true }, waitingMessage, ran⟩, sent, _, _, _, shape, latest, known,
    short⟩

end Dmx512.Node
