import Dmx512.Proofs.Node.Sending
import Dmx512.Proofs.Station.TwinTurns

/-!
# Nodes on twin hardware

A session runs on twin hardware beside another one if both perform the same operations, and what
changes the hardware from outside in between leaves it as alike as the listening of the node asks
for. Then both sessions answer the same, and leave nodes of which the second one is ahead; or they
stop at the same place. Nothing is sent by hand before an RDM frame was published, unless no clock
is ahead: until then, nothing is known of when the latest one ended.
-/

namespace Dmx512

open Act Link Standard

/-- The answer with the end of the latest RDM frame at a later time. -/
def Answer.later (shift : Micros) : Answer → Answer
  | .counters counted => .counters (counted.later shift)
  | .statistics snapshot => .statistics (snapshot.later shift)
  | other => other

@[simp] theorem Answer.later_zero (answer : Answer) : answer.later 0 = answer := by
  cases answer <;> simp [Answer.later]

namespace Node

variable {H : Type} [Hardware H] {d r : Nat} {twins : Twins H} {standing : Standing}
variable {s s' t t' : Node H d r}

/-- By how much the end of the latest RDM frame is ahead at the second of two nodes. -/
def dating (s : Node H d r) (offset : Micros) : Micros := s.link.line.journal.dating offset

/-- Nodes side by side, in a standing. -/
def Beside (twins : Twins H) (standing : Standing) (s s' : Node H d r) : Prop :=
  s'.station = s.station.map (Station.later twins.offset) ∧
    Link.BesideIn twins standing s.link s'.link

/-- Nodes side by side that have answered, the second one what the first one did. -/
abbrev Answered (twins : Twins H) (answer answer' : Answer) (s s' : Node H d r) : Prop :=
  answer' = answer.later (s.dating twins.offset) ∧ ∃ standing, Beside twins standing s s'

/-- What links do side by side they do under their nodes. -/
theorem pairs_onLink {α : Type} {act act' : Act (Link H d r) α} {R : α → α → Prop}
    (h : Pairs (Link.BesideIn twins standing) act act' fun a a' t t' =>
      R a a' ∧ ∃ standing, Link.BesideIn twins standing t t') :
    Pairs (Beside twins standing) (onLink act) (onLink act') fun a a' t t' =>
      R a a' ∧ ∃ standing, Beside twins standing t t' := by
  rintro s s' ⟨station, beside⟩
  apply (h s.link s'.link beside).bind
  rintro ⟨a, t⟩ ⟨a', t'⟩ ⟨answers, standing, beside'⟩
  exact ⟨answers, standing, station, beside'⟩

section Stations

variable {α : Type} {pre : Attached H d r → Attached H d r → Prop}

abbrev Replied (twins : Twins H) (answer answer' : Answer) (s s' : Attached H d r) : Prop :=
  answer' = answer.later (s.dating twins) ∧ ∃ standing, Attached.Beside twins standing s s'

/-- What is answered in the same words does not depend on when it is. -/
theorem pairs_reply {act act' : Act (Attached H d r) α} (reply : α → Answer)
    (plain : ∀ a shift, (reply a).later shift = reply a)
    (h : Pairs pre act act' (Attached.Sent twins)) :
    Pairs pre (do pure (reply (← act))) (do pure (reply (← act'))) (Replied twins) := by
  apply Pairs.bind_known h
  rintro _ a rfl
  exact Pairs.pure fun s s' h => ⟨(plain a _).symm, h⟩

theorem pairs_reply_abreast {act act' : Act (Attached H d r) α} (reply : α → Answer)
    (plain : ∀ a shift, (reply a).later shift = reply a)
    (h : Abreast (Attached.Beside twins standing) act act' Eq) :
    Pairs (Attached.Beside twins standing) (do pure (reply (← act))) (do pure (reply (← act')))
      (Replied twins) :=
  pairs_reply reply plain (Pairs.mono h fun _ _ _ _ kept => ⟨kept.1.symm, standing, kept.2⟩)

/-- An operation of the station is answered where there is one. -/
theorem pairs_onStation {act act' : Act (Attached H d r) Answer}
    (h : Pairs pre act act' (Replied twins)) : Pairs
    (fun s s' => Beside twins standing s s' ∧ ∀ station, s.station = some station →
      pre { station, link := s.link } { station := station.later twins.offset, link := s'.link })
    (onStation act) (onStation act') (Answered twins) := by
  rintro s s' ⟨⟨station, beside⟩, ready⟩
  rw [onStation, onStation, station]
  cases present : s.station with
  | none => exact ⟨rfl, standing, station, beside⟩
  | some station =>
      apply (h _ _ (ready station present)).bind
      rintro ⟨answer, t⟩ ⟨answer', t'⟩ ⟨same, standing, later, beside⟩
      exact ⟨same, standing, congrArg some later, beside⟩

end Stations

/-- The operation sends a frame by hand: a station is there, no sequencer streams, and the message
passes its check. -/
def SendsByHand (s : Node H d r) (operation : Operation) : Prop :=
  ∃ station dispatch bytes, s.station = some station ∧
    operation.dispatch? station.transaction = some dispatch ∧
    s.link.engine.sending = false ∧ dispatch.frame = .ok bytes

/-- Nodes side by side of which the first one is sound, and knows of an RDM frame if the operation
is to send by hand. -/
structure Prepared (twins : Twins H) (standing : Standing) (operation : Operation)
    (s s' : Node H d r) : Prop where
  beside : Beside twins standing s s'
  sound : s.Sound
  dated : s.SendsByHand operation → s.dating twins.offset = twins.offset

/-- An operation of the station needs no more than stations side by side. -/
theorem pairs_plain {operation : Operation} {act act' : Act (Attached H d r) Answer}
    (h : Pairs (Attached.Beside twins standing) act act' (Replied twins)) :
    Pairs (Prepared twins standing operation) (onStation act) (onStation act') (Answered twins) :=
  (pairs_onStation h).of_imp fun _ _ prepared =>
    ⟨prepared.beside, fun _ _ => ⟨rfl, prepared.beside.2⟩⟩

/-- An operation that sends by hand finds stations that are informed. -/
theorem pairs_sending {operation : Operation} {act act' : Act (Attached H d r) Answer}
    {valid : Prop} (asks : ∀ number, valid → ∃ dispatch bytes,
      operation.dispatch? number = some dispatch ∧ dispatch.frame = .ok bytes)
    (h : Pairs (Attached.Informed twins standing (standing ≠ (.output, true) ∧ valid)) act act'
      (Replied twins)) :
    Pairs (Prepared twins standing operation) (onStation act) (onStation act')
      (Answered twins) := by
  apply (pairs_onStation h).of_imp
  rintro s s' prepared
  refine ⟨prepared.beside, fun station present => ⟨⟨rfl, prepared.beside.2⟩,
    ⟨prepared.sound.free, ?_⟩, trivial⟩⟩
  rintro ⟨other, valid⟩
  obtain ⟨dispatch, bytes, asked, frame⟩ := asks station.transaction valid
  have quiet : s.link.engine.sending = false :=
    prepared.beside.2.engine.sending.1.trans (decide_eq_false other)
  exact prepared.dated ⟨station, dispatch, bytes, present, asked, quiet, frame⟩

theorem pairs_perform_attach (config : Config) :
    Pairs (Prepared twins standing (.attach config)) (attach config : Act (Node H d r) Answer)
      (attach config) (Answered twins) := by
  have attached : Pairs (Prepared twins standing (.attach config))
      (onLink (Link.attach config) : Act (Node H d r) (Outcome Station))
      (onLink (Link.attach config)) fun outcome outcome' s s' =>
        (outcome' = outcome ∧ ∀ station, outcome = .ok station → station = { config }) ∧
          ∃ standing, Beside twins standing s s' := by
    rintro s s' ⟨⟨station, beside⟩, sound, _⟩
    have stopped (vacant : s.link.cell.value.attached = false) : standing.2 = false := by
      refine Bool.eq_false_iff.mpr fun running => ?_
      have busy := sound.sound.attached (beside.engine.running.trans running)
      exact absurd (vacant.symm.trans busy) nofun
    apply (pairs_attach config s.link s'.link ⟨beside, sound.free, stopped⟩).bind
    rintro ⟨outcome, t⟩ ⟨outcome', t'⟩ ⟨same, standing, beside'⟩
    exact ⟨same, standing, station, beside'⟩
  rw [attach]
  apply Pairs.bind_known attached
  rintro _ outcome ⟨rfl, fresh⟩
  cases outcome with
  | error refusal => exact Pairs.pure fun s s' h => ⟨rfl, h⟩
  | ok station =>
      rintro s s' ⟨standing, _, beside⟩
      obtain rfl := fresh station rfl
      exact ⟨rfl, standing, rfl, beside⟩

theorem pairs_perform_detach : Pairs (Prepared twins standing .detach)
    (detach : Act (Node H d r) Answer) detach (Answered twins) := by
  rintro s s' ⟨⟨station, beside⟩, _⟩
  rw [detach, detach, station]
  cases present : s.station with
  | none => exact ⟨rfl, standing, station, beside⟩
  | some station =>
      apply (pairs_detach s.link s'.link beside).bind
      rintro ⟨_, t⟩ ⟨_, t'⟩ ⟨standing, beside'⟩
      exact ⟨rfl, standing, rfl, beside'⟩

/-- Every operation is answered alike on twin hardware. -/
theorem pairs_perform (operation : Operation) : Pairs (Prepared twins standing operation)
    (perform operation : Act (Node H d r) Answer) (perform operation) (Answered twins) := by
  cases operation with
  | attach config => exact pairs_perform_attach config
  | detach => exact pairs_perform_detach
  | interrupt interrupt =>
      have served : Pairs (Prepared twins standing (.interrupt interrupt))
          (onLink (Link.serve interrupt) : Act (Node H d r) Unit) (onLink (Link.serve interrupt))
          fun _ _ t t' => True ∧ ∃ standing, Beside twins standing t t' :=
        (pairs_onLink (Pairs.mono (Matches.serve interrupt) fun _ _ _ _ h =>
          ⟨trivial, standing, h.2⟩)).of_imp fun _ _ prepared => prepared.beside
      apply Pairs.bind served
      exact fun _ _ => Pairs.pure fun s s' h => ⟨rfl, h.2⟩
  | counters =>
      rintro s s' ⟨⟨station, beside⟩, _⟩
      exact ⟨congrArg Answer.counters beside.counters, standing, station, beside⟩
  | setDirection target enable =>
      refine pairs_plain (pairs_reply Answer.ofOutcome ?_ ?_)
      · rintro (_ | _) _ <;> rfl
      · exact (Attached.pairs_setDirection target enable).mono fun _ _ _ _ h =>
          ⟨h.1, h.2.imp fun _ => And.left⟩
  | setBreakTime | setMarkTime | setPeriod =>
      exact pairs_plain (pairs_reply_abreast .timing (fun _ _ => rfl)
        (Attached.abreast_applyTiming _))
  | timing =>
      exact pairs_plain (pairs_reply_abreast .timing (fun _ _ => rfl) Attached.abreast_timing)
  | sendData frame =>
      refine pairs_plain (pairs_reply_abreast .ofOutcome ?_ (Attached.abreast_sendData frame))
      rintro (_ | _) _ <;> rfl
  | sendSlots slots =>
      refine pairs_plain (pairs_reply_abreast .ofOutcome ?_ (Attached.abreast_sendSlots slots))
      rintro (_ | _) _ <;> rfl
  | takeDmx =>
      exact pairs_plain (pairs_reply_abreast .dmx (fun _ _ => rfl) Attached.abreast_takeDmx)
  | peekDmx =>
      exact pairs_plain (pairs_reply_abreast .dmx (fun _ _ => rfl) Attached.abreast_peekDmx)
  | takeChangedDmx =>
      exact pairs_plain (pairs_reply_abreast .dmx (fun _ _ => rfl) Attached.abreast_takeChangedDmx)
  | takeRdm =>
      exact pairs_plain (pairs_reply_abreast .rdm (fun _ _ => rfl) Attached.abreast_takeRdm)
  | peekRdm =>
      exact pairs_plain (pairs_reply_abreast .rdm (fun _ _ => rfl) Attached.abreast_peekRdm)
  | updatesPerSecond =>
      exact pairs_plain (pairs_reply_abreast .rate (fun _ _ => rfl)
        Attached.abreast_updatesPerSecond)
  | statistics =>
      apply pairs_plain
      apply Pairs.bind Attached.pairs_statistics
      exact fun _ _ => Pairs.pure fun s s' h => ⟨congrArg Answer.statistics h.1, standing, h.2⟩
  | config =>
      apply pairs_plain
      rintro s s' ⟨station, beside⟩
      refine ⟨?_, standing, station, beside⟩
      change Answer.config s'.station.config = _
      rw [station]
      rfl
  | transaction =>
      apply pairs_plain
      rintro s s' ⟨station, beside⟩
      refine ⟨?_, standing, station, beside⟩
      change Answer.transaction s'.station.transaction = _
      rw [station]
      rfl
  | direction =>
      apply pairs_plain
      apply Pairs.bind_known Attached.abreast_direction
      rintro _ _ ⟨rfl, rfl⟩
      exact Pairs.pure fun s s' h => ⟨rfl, _, h⟩
  | flush =>
      apply pairs_plain
      apply Pairs.bind_known Attached.abreast_flush
      exact fun _ _ _ => Pairs.pure fun s s' h => ⟨rfl, _, h⟩
  | resetCounters =>
      apply pairs_plain
      apply Pairs.bind_known Attached.abreast_resetCounters
      exact fun _ _ _ => Pairs.pure fun s s' h => ⟨rfl, _, h⟩
  | sendMessage message spacing =>
      refine pairs_sending ?_ (Pairs.bind_known (Attached.pairs_sendMessage message spacing) ?_)
      · rintro number ⟨sum, valid⟩
        exact ⟨_, _, rfl, congrArg (Except.map _) valid⟩
      · rintro _ outcome rfl
        cases outcome <;> exact Pairs.pure fun s s' h => ⟨rfl, h⟩
  | sendResponse message =>
      refine pairs_sending ?_ (pairs_reply .ofOutcome ?_ (Attached.pairs_sendResponse message))
      · rintro number ⟨sum, valid⟩
        exact ⟨_, _, rfl, congrArg (Except.map _) valid⟩
      · rintro (_ | _) _ <;> rfl
  | sendDiscoveryResponse uid =>
      refine pairs_sending (fun number _ => ⟨_, _, rfl, rfl⟩) (pairs_reply .ofOutcome ?_
        (Attached.pairs_sendDiscoveryResponse uid))
      rintro (_ | _) _ <;> rfl

/-- What comes of one step: the answer of an operation, and the node behind the step. -/
def tell (s : Node H d r) : Action H → Checked (Option Answer × Node H d r)
  | .perform operation => do
    let (answer, t) ← perform operation s
    pure (some answer, t)
  | .disturb change => pure (none, s.disturb change)

/-- What comes of the steps of a session, one after the other. -/
def transcript (s : Node H d r) : List (Action H) →
    Checked (List (Option Answer × Node H d r))
  | [] => pure []
  | action :: rest => do
    let told ← s.tell action
    pure (told :: (← told.2.transcript rest))

/-- A session on twin hardware runs beside the one from a node: the same operations are performed,
and what changes the hardware of the one changes that of the other as the listening of the node
asks for. Behind the offset of a clock nothing is sent by hand before an RDM frame was published. -/
inductive Parallel (twins : Twins H) : Node H d r → List (Action H) → List (Action H) → Prop where
  | nil (s : Node H d r) : Parallel twins s [] []
  | perform {s : Node H d r} {operation : Operation} {rest rest' : List (Action H)}
      (known : s.SendsByHand operation →
        twins.offset = 0 ∨ s.link.line.journal.rdmEnd?.isSome = true)
      (later : ∀ answer t, perform operation s = .ok (answer, t) → Parallel twins t rest rest') :
      Parallel twins s (.perform operation :: rest) (.perform operation :: rest')
  | disturb {s : Node H d r} {change change' : H → H} {rest rest' : List (Action H)}
      (alike : ∀ h', twins.alike s.link.engine.receiving s.link.line.hardware h' →
        twins.alike s.link.engine.receiving (change s.link.line.hardware) (change' h'))
      (later : Parallel twins (s.disturb change) rest rest') :
      Parallel twins s (.disturb change :: rest) (.disturb change' :: rest')

/-- Actions that run beside each other wherever they are carried out: nothing is sent by hand, and
what changes the hardware leaves it as alike as it was. -/
inductive Action.Beside (twins : Twins H) : Action H → Action H → Prop where
  | perform {operation : Operation} (quiet : ∀ number, operation.dispatch? number = none) :
      Action.Beside twins (.perform operation) (.perform operation)
  | disturb {change change' : H → H} (alike : ∀ listening h h', twins.alike listening h h' →
      twins.alike listening (change h) (change' h')) :
      Action.Beside twins (.disturb change) (.disturb change')

theorem Parallel.of_beside {actions actions' : List (Action H)}
    (h : List.Forall₂ (Action.Beside twins) actions actions') (s : Node H d r) :
    Parallel twins s actions actions' := by
  induction h generalizing s with
  | nil => exact .nil s
  | cons first _ ih =>
      cases first with
      | perform quiet =>
          refine .perform ?_ fun _ t _ => ih t
          rintro ⟨station, _, _, _, asked, _⟩
          exact absurd (asked.symm.trans (quiet station.transaction)) nofun
      | disturb alike => exact .disturb (fun h' => alike _ _ h') (ih _)

theorem Parallel.append {first first' rest rest' : List (Action H)}
    (front : Parallel twins s first first')
    (behind : ∀ t, s.run first = .ok t → Parallel twins t rest rest') :
    Parallel twins s (first ++ rest) (first' ++ rest') := by
  induction front with
  | nil => exact behind _ rfl
  | perform known _ ih =>
      refine .perform known fun answer t done => ih answer t done fun u ran => behind u ?_
      rw [run, Node.act, done]
      exact ran
  | disturb alike _ ih => exact .disturb alike (ih behind)

/-- Nodes that were never used are side by side, if their hardware is. -/
theorem Beside.powerUp {hardware hardware' : H} (alike : twins.alike false hardware hardware') :
    Beside twins (.input, false) (powerUp hardware : Node H d r) (powerUp hardware') :=
  ⟨rfl, {
    hardware := alike
    journal := rfl
    engine := {
      receiver := ⟨rfl, .inr ⟨rfl, nofun⟩, rfl, rfl, .inr ⟨rfl, nofun⟩, rfl, rfl, rfl⟩
      transmitter := ⟨rfl, .inr ⟨rfl, rfl⟩⟩
      direction := rfl
      running := rfl
      same := ⟨rfl, rfl, rfl⟩
      watchdog := rfl
      wellFormed := .of_idle rfl rfl
      rests := fun _ => rfl }
    ending := rfl
    uses := rfl
    dmxStore := rfl
    rdmStore := rfl }⟩

abbrev Told (twins : Twins H) (told told' : Option Answer × Node H d r) : Prop :=
  told'.1 = told.1.map (Answer.later (told.2.dating twins.offset)) ∧
    ∃ standing, Beside twins standing told.2 told'.2

/-- Sessions that run beside each other are told alike, or stop at the same place. -/
theorem Parallel.told {actions actions' : List (Action H)}
    (parallel : Parallel twins s actions actions') (sound : s.Sound)
    (beside : Beside twins standing s s') :
    Checked.Both (List.Forall₂ (Told twins)) (s.transcript actions) (s'.transcript actions') := by
  induction parallel generalizing s' standing with
  | nil => exact .nil
  | @perform s operation rest rest' known _ ih =>
      have dated (sends : s.SendsByHand operation) : s.dating twins.offset = twins.offset := by
        rw [dating, Journal.dating]
        rcases known sends with none | published
        · rw [none, ite_self]
        · rw [if_pos published]
      have told : Checked.Both (fun told told' => Told twins told told' ∧
          ∃ answer, Node.perform operation s = .ok (answer, told.2)) (s.tell (.perform operation))
          (s'.tell (.perform operation)) := by
        apply (pairs_perform operation s s' ⟨beside, sound, dated⟩).ran.bind
        rintro ⟨answer, t⟩ ⟨answer', t'⟩ ⟨⟨same, beside⟩, performed, _⟩
        exact ⟨⟨congrArg some same, beside⟩, answer, performed⟩
      rw [transcript, transcript]
      apply told.bind
      rintro ⟨_, t⟩ ⟨_, t'⟩ ⟨shown, answer, performed⟩
      obtain ⟨standing, beside'⟩ := shown.2
      have acted : s.act (.perform operation) = .ok t := by
        rw [Node.act, performed]
        rfl
      exact (ih answer t performed ((sound.act acted).sound sound) beside').bind
        fun _ _ rest => .cons shown rest
  | @disturb s change change' rest rest' alike _ ih =>
      have receiving := beside.2.engine.receiving.1
      have disturbed : Beside twins standing (s.disturb change) (s'.disturb change') :=
        ⟨beside.1, { beside.2 with
          hardware := receiving ▸ alike _ (receiving ▸ beside.2.hardware) }⟩
      have acted : s.act (.disturb change) = .ok (s.disturb change) := rfl
      rw [transcript, transcript]
      exact (ih ((sound.act acted).sound sound) disturbed).bind
        fun _ _ rest => .cons ⟨rfl, standing, disturbed⟩ rest

end Node

end Dmx512
