import Dmx512.Proofs.Node.Reception
import Dmx512.Proofs.Node.Watching

/-!
# Bursts of signals

Signals may wait in the receive queue, and an interrupt serves a bounded number of them. How
they are grouped makes no difference: each is taken in at the next reading of the clock,
whichever interrupt serves it, so that the receiver, its stores, the counters, the clock and
the receive alarm end as if every signal had come with an interrupt of its own.
-/

namespace Dmx512.Node

open Act Link Standard

variable {H : Type} [Hardware H] {d r : Nat} {s t t' : Node H d r} {clockwork : Clockwork H}
variable {actions actions' : List (Action H)} {signals : List Signal}

/-- A run feeds signals to a node: they are queued, any number at a time, and interrupts of the
serial interface are served in between. Nothing but the link moves the clock. -/
inductive Feeds (clockwork : Clockwork H) :
    Node H d r → List (Action H) → List Signal → Node H d r → Prop where
  | nil (s : Node H d r) : Feeds clockwork s [] [] s
  | queue {s t : Node H d r} {change : H → H} {rest : List (Action H)}
      {signals more : List Signal}
      (queued : clockwork.pending (change s.link.line.hardware) =
        clockwork.pending s.link.line.hardware ++ signals)
      (still : clockwork.readings (change s.link.line.hardware) =
        clockwork.readings s.link.line.hardware)
      (later : Feeds clockwork (s.disturb change) rest more t) :
      Feeds clockwork s (.disturb change :: rest) (signals ++ more) t
  | serve {s m t : Node H d r} {rest : List (Action H)} {signals : List Signal}
      (acted : s.act (.perform (.interrupt .uart)) = .ok m)
      (later : Feeds clockwork m rest signals t) :
      Feeds clockwork s (.perform (.interrupt .uart) :: rest) signals t

theorem Feeds.ran (feeds : Feeds clockwork s actions signals t) : s.run actions = .ok t := by
  induction feeds with
  | nil => rfl
  | queue _ _ _ ih => exact ih
  | serve acted _ ih =>
      rw [Node.run, acted]
      exact ih

/-- Interrupts alone feed nothing. -/
theorem Feeds.interrupts {calls : Nat}
    (ran : s.run (List.replicate calls (.perform (.interrupt .uart))) = .ok t) :
    Feeds clockwork s (List.replicate calls (.perform (.interrupt .uart))) [] t := by
  induction calls generalizing s with
  | zero =>
      cases ran
      exact .nil _
  | succ calls ih =>
      obtain ⟨m, acted, ran'⟩ := run_cons ran
      exact .serve acted (ih ran')

theorem Feeds.append {m : Node H d r} {more : List Signal}
    (feeds : Feeds clockwork s actions signals m) (feeds' : Feeds clockwork m actions' more t) :
    Feeds clockwork s (actions ++ actions') (signals ++ more) t := by
  induction feeds with
  | nil => exact feeds'
  | queue queued still _ ih =>
      rw [List.append_assoc]
      exact .queue queued still (ih feeds')
  | serve acted _ ih => exact .serve acted (ih feeds')

/-- An interrupt of the serial interface takes in the first signals of the queue. -/
theorem Sound.takes_in (h : s.Sound) {i : Intake d r}
    (taken : s.link.TookIn clockwork i signals)
    (acted : s.act (.perform (.interrupt .uart)) = .ok t) :
    ∃ i', i.hearAll (signals.take serviceLimit) = .ok i' ∧
      t.link.TookIn clockwork i' (signals.drop serviceLimit) := by
  obtain ⟨_, ended⟩ := perform_of_act acted
  have serves : WP (fun _ => True) (perform (.interrupt .uart)) (fun _ t =>
      ∃ i', i.hearAll (signals.take serviceLimit) = .ok i' ∧
        t.link.TookIn clockwork i' (signals.drop serviceLimit)) s := by
    rw [perform, WP.bind_iff, wp_onLink]
    exact taken.serve h.free
  exact serves.elim ended

/-- What a run has taken in is what was pending before it and what it brings, except what is
pending after it. -/
theorem Feeds.takes_in (feeds : Feeds clockwork s actions signals t) (h : s.Sound) :
    ∃ heard i', (s.link.intake clockwork).hearAll heard = .ok i' ∧
      t.link.intake clockwork = i' ∧
      heard ++ clockwork.pending t.link.line.hardware =
        clockwork.pending s.link.line.hardware ++ signals := by
  induction feeds with
  | nil s => exact ⟨[], _, rfl, rfl, (List.append_nil _).symm⟩
  | @queue s t change rest signals more queued still _ ih =>
      have acted : s.act (.disturb change) = .ok (s.disturb change) := rfl
      have next : (s.disturb change).Sound := (h.act acted).sound h
      obtain ⟨heard, i', told, taken, whole⟩ := ih next
      have same : (s.disturb change).link.intake clockwork = s.link.intake clockwork := by
        change { s.link.intake clockwork with
          readings := clockwork.readings (change s.link.line.hardware) } = _
        rw [still]
        rfl
      refine ⟨heard, i', same ▸ told, taken, ?_⟩
      rw [whole, ← List.append_assoc, ← queued]
      rfl
  | @serve s m t rest signals acted _ ih =>
      obtain ⟨heard, i', told, taken, whole⟩ := ih ((h.act acted).sound h)
      obtain ⟨middle, first, served⟩ := h.takes_in ⟨rfl, rfl⟩ acted
      refine ⟨(clockwork.pending s.link.line.hardware).take serviceLimit ++ heard, i', ?_, taken,
        ?_⟩
      · rw [Intake.hearAll_append first, ← served.intake]
        exact told
      · rw [List.append_assoc, whole, served.pending, ← List.append_assoc, List.take_append_drop]

/-- Interrupts of the serial interface serve the queue: each as many signals as it may. -/
theorem Reachable.serves_pending (reachable : s.Reachable) (clockwork : Clockwork H) (calls : Nat) :
    ∃ t, s.run (List.replicate calls (.perform (.interrupt .uart))) = .ok t ∧
      clockwork.pending t.link.line.hardware =
        (clockwork.pending s.link.line.hardware).drop (serviceLimit * calls) := by
  induction calls generalizing s with
  | zero => exact ⟨s, rfl, rfl⟩
  | succ calls ih =>
      have listens : (Action.perform (.interrupt .uart) : Action H).Listens := trivial
      obtain ⟨m, acted, _⟩ := reachable.sound.listens_act listens
      obtain ⟨_, _, served⟩ := reachable.sound.takes_in ⟨rfl, rfl⟩ acted
      obtain ⟨t, ran, left⟩ := ih (reachable.act acted)
      refine ⟨t, ?_, ?_⟩
      · rw [List.replicate_succ, Node.run, acted]
        exact ran
      · rw [left, served.pending, List.drop_drop, Nat.mul_succ, Nat.add_comm]

/-- Bursts are served as single signals are. An interrupt of the serial interface takes the first
64 signals of the receive queue, or all if there are fewer. And whether it receives or not, a
node whose queue is empty ends the same for any two groupings of the signals that it is fed, once
the queue is empty again: its receiver has responded to the same at the same times, and the
stores, the counters, the readings of the clock to come and the deadline of the receive alarm
agree. -/
theorem Reachable.serves_bursts (reachable : s.Reachable) (clockwork : Clockwork H) :
    (∀ calls, ∃ t, s.run (List.replicate calls (.perform (.interrupt .uart))) = .ok t ∧
      clockwork.pending t.link.line.hardware =
        (clockwork.pending s.link.line.hardware).drop (64 * calls)) ∧
    (clockwork.pending s.link.line.hardware = [] →
      ∀ signals actions actions' t t', Feeds clockwork s actions signals t →
        Feeds clockwork s actions' signals t' →
        clockwork.pending t.link.line.hardware = [] →
        clockwork.pending t'.link.line.hardware = [] →
        t.link.engine.receiver = t'.link.engine.receiver ∧
        t.link.line.journal.occasions = t'.link.line.journal.occasions ∧
        t.link.dmxStore = t'.link.dmxStore ∧ t.link.rdmStore = t'.link.rdmStore ∧
        t.link.counters = t'.link.counters ∧
        clockwork.readings t.link.line.hardware = clockwork.readings t'.link.line.hardware ∧
        t.link.line.journal.alarm? .receiveTimeout =
          t'.link.line.journal.alarm? .receiveTimeout) := by
  refine ⟨reachable.serves_pending clockwork, ?_⟩
  intro start signals actions actions' t t' feeds feeds' done done'
  obtain ⟨heard, i, told, taken, whole⟩ := feeds.takes_in reachable.sound
  obtain ⟨heard', i', told', taken', whole'⟩ := feeds'.takes_in reachable.sound
  rw [start, done, List.append_nil] at whole
  rw [start, done', List.append_nil] at whole'
  have same : t.link.intake clockwork = t'.link.intake clockwork := by
    rw [whole, ← whole'] at told
    rw [taken, taken']
    exact Except.ok.inj (told.symm.trans told')
  have receiver : t.link.engine.receiver = t'.link.engine.receiver := congrArg Intake.receiver same
  have overruns : t.link.engine.transmitter.overruns = t'.link.engine.transmitter.overruns :=
    congrArg Intake.overruns same
  have watchful := (reachable.run feeds.ran).watchful
  have watchful' := (reachable.run feeds'.ran).watchful
  refine ⟨receiver, congrArg Intake.occasions same, congrArg Intake.dmxStore same,
    congrArg Intake.rdmStore same, ?_, congrArg Intake.readings same, ?_⟩
  · rw [Link.counters, Link.counters, receiver, overruns]
  · have armed := watchful.watched.armed.trans watchful.aligned
    have armed' := watchful'.watched.armed.trans watchful'.aligned
    exact armed.trans ((congrArg Receiver.deadline receiver).trans armed'.symm)

/-- Entries join the queue of a bench, and a number of interrupts serve it. -/
def arrivalRun (entries : List Received) (calls : Nat) : List (Action Bench) :=
  .disturb (fun b => { b with received := b.received ++ entries }) ::
    List.replicate calls (.perform (.interrupt .uart))

/-- Entries that join the empty queue of a bench are fed to its node. -/
theorem feeds_bench {s t : Node Bench d r} {entries : List Received} {calls : Nat}
    (empty : s.link.line.hardware.received = [])
    (ran : s.run (arrivalRun entries calls) = .ok t) :
    Feeds Bench.clockwork s (arrivalRun entries calls) (receivedSignals entries) t := by
  have queued : receivedSignals (s.link.line.hardware.received ++ entries) =
      receivedSignals s.link.line.hardware.received ++ receivedSignals entries := by
    rw [empty]
    rfl
  have feeds : Feeds Bench.clockwork s (arrivalRun entries calls)
      (receivedSignals entries ++ []) t :=
    .queue queued rfl (.interrupts ran)
  rwa [List.append_nil] at feeds

def longPacket : List Received :=
  Bench.breakEntry :: (0x00 :: List.replicate 64 0x07).map fun byte => { status := 0x01, byte }

/-- The packet in one burst that two interrupts serve, and with an interrupt of its own for the
break. The clock moves by 3 us at every reading. -/
theorem Reachable.serves_bursts_packet :
    ∃ s t t' : Node Bench 0 0, s.Reachable ∧
      Feeds Bench.clockwork s (arrivalRun longPacket 2) (receivedSignals longPacket) t ∧
      Feeds Bench.clockwork s
        (arrivalRun (longPacket.take 1) 1 ++ arrivalRun (longPacket.drop 1) 2)
        (receivedSignals longPacket) t' ∧
      t.link.engine.receiver = t'.link.engine.receiver ∧
      t.link.line.journal.alarm? .receiveTimeout = t'.link.line.journal.alarm? .receiveTimeout := by
  have carried : (powerUp { step := 3 } : Node Bench 0 0).Ends benchStart fun s =>
      s.link.line.hardware.received = [] ∧
        (s.Ends (arrivalRun longPacket 2) fun t => t.link.line.hardware.received = []) ∧
        s.Ends (arrivalRun (longPacket.take 1) 1) fun m => m.link.line.hardware.received = [] ∧
          m.Ends (arrivalRun (longPacket.drop 1) 2) fun t' =>
            t'.link.line.hardware.received = [] := by
    decide +kernel
  obtain ⟨s, started, empty, ⟨t, ran, done⟩, m, first, between, t', second, done'⟩ := carried
  have reachable : s.Reachable := ⟨{ step := 3 }, benchStart, started⟩
  have burst := feeds_bench empty ran
  have parts := (feeds_bench empty first).append (feeds_bench between second)
  have whole : receivedSignals (longPacket.take 1) ++ receivedSignals (longPacket.drop 1) =
      receivedSignals longPacket := by decide
  rw [whole] at parts
  have none {u : Node Bench 0 0} (empty : u.link.line.hardware.received = []) :
      Bench.clockwork.pending u.link.line.hardware = [] := congrArg receivedSignals empty
  obtain ⟨_, groups⟩ := Reachable.serves_bursts reachable Bench.clockwork
  obtain ⟨receiver, _, _, _, _, _, alarm⟩ :=
    groups (none empty) _ _ _ t t' burst parts (none done) (none done')
  exact ⟨s, t, t', reachable, burst, parts, receiver, alarm⟩

end Dmx512.Node
