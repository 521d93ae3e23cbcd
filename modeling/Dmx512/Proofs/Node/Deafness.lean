import Dmx512.Proofs.Bench.Twins
import Dmx512.Proofs.Link.Gating
import Dmx512.Proofs.Node.Session
import Dmx512.Proofs.Node.Twins

/-!
# Nothing heard while a node does not listen matters

Where no clock is ahead, sessions that run beside each other differ in what enters the receive
queue while the node does not listen, and in nothing that comes of it. The queue is emptied before
the receiver begins anew, so that every frame is a part of what was heard since.
-/

namespace Dmx512.Node

open Link

variable {H : Type} [Hardware H] {d r : Nat} {twins : Twins H} {standing : Standing}
variable {s s' : Node H d r}

/-- Nodes that differ in their hardware at most, and in what they were told where they looked at
the line status. -/
structure SameInside (s s' : Node H d r) : Prop where
  engine : s'.link.engine = s.link.engine
  counters : s'.link.counters = s.link.counters
  station : s'.station = s.station
  dmxStore : s'.link.dmxStore = s.link.dmxStore
  rdmStore : s'.link.rdmStore = s.link.rdmStore
  deeds : s'.link.line.journal.deeds = s.link.line.journal.deeds
  publications : s'.link.line.journal.publications = s.link.line.journal.publications

/-- Side by side nodes are the same inside, if no clock is ahead. -/
theorem Beside.sameInside (h : Beside twins standing s s') (still : twins.offset = 0) :
    s.SameInside s' := by
  obtain ⟨station, beside⟩ := h
  have engine := beside.engine
  have ending := beside.ending
  have journal := beside.journal
  rw [still] at station engine ending journal
  rw [Journal.dating_zero, UInt32.add_zero] at ending
  have same : s'.link.engine = s.link.engine := engine.eq_of_zero ending
  have alone : Station.later 0 = id := funext Station.later_zero
  exact {
    engine := same
    counters := by rw [Link.counters, same, Link.counters]
    station := by rw [station, alone, Option.map_id, id]
    dmxStore := beside.dmxStore
    rdmStore := beside.rdmStore
    deeds := journal.deeds_eq
    publications := journal.publications }

/-- What a node hears while it does not listen does not matter. Two sessions that differ in
nothing else answer the same step by step, and leave nodes that are the same inside; if one
stops, both stop at the same step. And every frame that a node has ever published is a part of
what it heard since its receiver was last started. -/
theorem Parallel.transcript_deaf {hardware hardware' : H} {actions actions' : List (Action H)}
    (still : twins.offset = 0) (alike : twins.alike false hardware hardware')
    (parallel : Parallel twins (powerUp hardware : Node H d r) actions actions') :
    (∀ told, (powerUp hardware : Node H d r).transcript actions = .ok told →
      ∃ told', (powerUp hardware' : Node H d r).transcript actions' = .ok told' ∧
        List.Forall₂ (fun step step' => step'.1 = step.1 ∧ step.2.SameInside step'.2) told told') ∧
      (∀ fault, (powerUp hardware : Node H d r).transcript actions = .error fault →
        (powerUp hardware' : Node H d r).transcript actions' = .error fault) ∧
      ∀ s : Node H d r, s.Reachable → s.link.line.journal.PublishesHeard := by
  have both := parallel.told (.powerUp hardware) (.powerUp alike)
  refine ⟨fun told done => ?_, fun fault stopped => both.exists_error stopped,
    fun s reachable => ?_⟩
  · obtain ⟨told', done', steps⟩ := both.exists_ok done
    refine ⟨told', done', steps.imp ?_⟩
    rintro ⟨answer, t⟩ ⟨answer', t'⟩ ⟨same, _, beside⟩
    refine ⟨same.trans ?_, beside.sameInside still⟩
    have alone : Answer.later 0 = id := funext Answer.later_zero
    rw [still, dating, Journal.dating_zero, alone, Option.map_id, id]
  · obtain ⟨hardware, steps⟩ := reachable.steps
    have fresh : (powerUp hardware : Node H d r).Sound := .powerUp hardware
    have gated := steps.gated fresh.wired trivial
    exact gated.publishesHeard reachable.recounts.attested

/-- What a node does before it sends, and what it does from then on. -/
def listensFirst : List (Action Bench) :=
  benchStart ++ messageRun ++ [.perform (.setDirection .output true)]

def listensAgain : List (Action Bench) :=
  .perform (.interrupt .uart) :: .perform (.setDirection .input true) :: messageRun

/-- Some bytes come before a node listens to a message, and others while it sends; then it
listens to the message again. -/
def overheard (early late : List UInt8) : List (Action Bench) :=
  .disturb (Bench.receive early 1) :: listensFirst ++
    .disturb (Bench.receive late 1) :: listensAgain

theorem Parallel.transcript_deaf_messages :
    ∃ told told', (powerUp {} : Node Bench 0 0).transcript (overheard [] []) = .ok told ∧
      (powerUp {} : Node Bench 0 0).transcript (overheard [0x12] [0xCC, 0x01]) = .ok told' ∧
      told.length = 14 ∧
      List.Forall₂ (fun step step' => step'.1 = step.1 ∧ step.2.SameInside step'.2) told told' ∧
      ∃ s : Node Bench 0 0, s.Reachable ∧
        s.link.line.journal.publications = [.rdm { data := [0xCC, 0x01, 0x03, 0x00, 0xD0] },
          .rdm { data := [0xCC, 0x01, 0x03, 0x00, 0xD0] }] ∧
        s.link.line.journal.PublishesHeard := by
  have ends : ∃ told, (powerUp {} : Node Bench 0 0).transcript (overheard [] []) = .ok told ∧
      told.length = 14 := by
    decide +kernel
  have carried : (powerUp {} : Node Bench 0 0).Ends (.disturb (Bench.receive [] 1) :: listensFirst)
      fun s => s.link.engine.receiving = false := by
    decide +kernel
  have published : (powerUp {} : Node Bench 0 0).Ends (overheard [] []) fun s =>
      s.link.line.journal.publications = [.rdm { data := [0xCC, 0x01, 0x03, 0x00, 0xD0] },
        .rdm { data := [0xCC, 0x01, 0x03, 0x00, 0xD0] }] := by
    decide +kernel
  have hears : List.Forall₂ (Action.Beside (Bench.twins 0 true)) messageRun messageRun :=
    .cons (.disturb fun _ _ _ h => Bench.Alike.receiveBreak h) (.cons (.perform fun _ => rfl)
      (.cons (.disturb fun _ _ _ h => Bench.Alike.receive h _ _) (.cons (.perform fun _ => rfl)
      .nil)))
  have parallel : Parallel (Bench.twins 0 true) (powerUp {} : Node Bench 0 0) (overheard [] [])
      (overheard [0x12] [0xCC, 0x01]) := by
    obtain ⟨s, ran, deaf⟩ := carried
    have front : List.Forall₂ (Action.Beside (Bench.twins 0 true)) listensFirst listensFirst :=
      .cons (.perform fun _ => rfl) (List.rel_append hears (.cons (.perform fun _ => rfl) .nil))
    have behind : List.Forall₂ (Action.Beside (Bench.twins 0 true)) listensAgain listensAgain :=
      .cons (.perform fun _ => rfl) (.cons (.perform fun _ => rfl) hears)
    have first : Parallel (Bench.twins 0 true) (powerUp {} : Node Bench 0 0)
        (.disturb (Bench.receive [] 1) :: listensFirst)
        (.disturb (Bench.receive [0x12] 1) :: listensFirst) :=
      .disturb (fun _ h => Bench.Alike.overhear h _ _) (.of_beside front _)
    refine first.append fun t reached => ?_
    obtain rfl : s = t := Except.ok.inj (ran.symm.trans reached)
    refine .disturb ?_ (.of_beside behind _)
    rw [deaf]
    exact fun _ h => Bench.Alike.overhear h _ _
  have alike : (Bench.twins 0 true).alike false {} {} := .unused 0
  obtain ⟨told, done, length⟩ := ends
  obtain ⟨s, ran, shown⟩ := published
  obtain ⟨same, _, heard⟩ := Parallel.transcript_deaf rfl alike parallel
  obtain ⟨told', done', steps⟩ := same told done
  have reachable : s.Reachable := ⟨{}, overheard [] [], ran⟩
  exact ⟨told, told', done, done', length, steps, s, reachable, shown, heard s reachable⟩

end Dmx512.Node
