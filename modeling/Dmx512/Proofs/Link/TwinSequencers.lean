import Dmx512.Proofs.Link.TwinInterrupts
import Dmx512.Station.Attachment

/-!
# Sequencers and stations on twin hardware

Sequencers are started and stopped side by side. A link that begins to listen has emptied its
receive queue before, so that its twin listens to the same from there on. Lines that rest take a
direction side by side, and links take stations and part from them.
-/

namespace Dmx512.Link

open Act Standard

variable {H : Type} [Hardware H] {d r : Nat} {twins : Twins H} {listening : Bool}
variable {standing : Standing}

theorem listens_output (running : Bool) : Standing.listens (.output, running) = false := by
  cases running <;> rfl

theorem listens_stopped (direction : Direction) : Standing.listens (direction, false) = false := by
  cases direction <;> rfl

/-- Links side by side, as far as their standing lets them listen. -/
abbrev BesideIn (twins : Twins H) (standing : Standing) : Link H d r → Link H d r → Prop :=
  Beside twins standing.listens standing

variable {act act' : Act (Link H d r) Unit} {standing' : Standing}

/-- A critical section leaves the standing that its body leaves. -/
theorem pairs_critical
    (h : Pairs (BesideIn twins standing) act act' fun _ _ => BesideIn twins standing') :
    Pairs (BesideIn twins standing) (critical act) (critical act')
      fun _ _ => BesideIn twins standing' := by
  have answers : Pairs (BesideIn twins standing) act act' fun _ _ s s' =>
      True ∧ BesideIn twins standing' s s' := h.mono fun _ _ _ _ beside => ⟨trivial, beside⟩
  exact Pairs.mono (Matches.critical answers) fun _ _ _ _ => And.right

/-- Nothing is left in the receive queue when a link begins to listen. -/
theorem pairs_clearReceive : Pairs (Beside twins false standing)
    (order .clearReceive : Act (Link H d r) Unit) (order .clearReceive)
    fun _ _ => Beside twins true standing := by
  intro s s' h
  have journal := h.journal.cons s.line.now (.order .clearReceive) rfl
  rw [← h.now] at journal
  exact h.withLine (twins.clears h.hardware) journal rfl

/-- Both receivers begin anew. -/
theorem pairs_reset : Matches twins listening standing
    (modifyEngine fun e => { e with receiver := e.receiver.reset } : Act (Link H d r) Unit)
    (modifyEngine fun e => { e with receiver := e.receiver.reset }) fun _ _ => True :=
  fun _ _ h => ⟨trivial, h.withEngine { h.engine with
    receiver := h.engine.receiver.reset, wellFormed := .reset _ } rfl rfl⟩

theorem pairs_start {direction : Direction} : Pairs (BesideIn twins (direction, false))
    (start : Act (Link H d r) Unit) start fun _ _ => BesideIn twins (direction, true) := by
  rw [start, BesideIn, listens_stopped]
  apply Pairs.bind_known Matches.getEngine
  intro e e' engine
  rw [engine.same.1, engine.direction]
  cases direction with
  | input =>
      have opened : Pairs (Beside twins false (.input, false))
          (startSequencer .input : Act (Link H d r) Unit) (startSequencer .input)
          fun _ _ => Beside twins true (.input, false) :=
        Pairs.bind_known pairs_reset fun _ _ _ => Pairs.bind pairs_clearReceive fun _ _ =>
          Pairs.mono (Matches.order (.allowReceive true) fun _ => rfl) fun _ _ _ _ => And.right
      apply Pairs.bind opened
      intro _ _ s s' h
      exact h.withEngine { h.engine with
        running := rfl
        same := by simp [h.engine.same]
        rests := fun _ => h.engine.rests (by simp) } rfl rfl
  | output =>
      have ready : Matches twins false (.output, false)
          (startSequencer .output : Act (Link H d r) Unit) (startSequencer .output)
          fun _ _ => True := by
        rw [startSequencer]
        apply Abreast.next (Matches.modifyTransmitter (fun _ _ ahead => ahead.start)
          fun _ _ _ => rfl)
        apply Matches.readClock.bind
        rintro time _ rfl
        have later : time + twins.offset + startDelay = time + startDelay + twins.offset := by grind
        rw [later]
        exact Matches.setPace (some (time + startDelay))
      apply Pairs.bind_known ready
      intro _ _ _ s s' h
      exact h.withEngine { h.engine with
        running := rfl, same := by simp [h.engine.same], rests := absurd rfl } rfl rfl

theorem pairs_halt {direction : Direction} {running : Bool} :
    Pairs (BesideIn twins (direction, running)) (halt : Act (Link H d r) Unit) halt
      fun _ _ => BesideIn twins (direction, false) := by
  rw [halt, BesideIn, BesideIn, listens_stopped]
  apply Pairs.bind_known Matches.getEngine
  intro e e' engine
  rw [engine.same.1, engine.direction]
  cases direction with
  | input =>
      have closed : Abreast (BesideIn twins (.input, running))
          (stopSequencer .input : Act (Link H d r) Unit) (stopSequencer .input)
          fun _ _ => True :=
        (Matches.order (.allowReceive false) fun _ => rfl).next
          (pairs_reset.next Matches.syncWatchdog)
      apply Pairs.bind_known closed
      intro _ _ _ s s' h
      exact Beside.deafen (h.withEngine { h.engine with
        running := rfl
        same := by simp [h.engine.same]
        rests := fun _ => h.engine.rests (by simp) } rfl rfl)
  | output =>
      -- The transmitter rests from where it is stopped on.
      have closed : Pairs (Beside twins false (.output, running))
          (stopSequencer .output : Act (Link H d r) Unit) (stopSequencer .output)
          fun _ _ s s' => Beside twins false (.output, running) s s' ∧
            s.cell.value.transmitter.state = .idle ∧ True := by
        rw [stopSequencer]
        apply Pairs.bind_known (Matches.order (.allowTransmit false) (by simp))
        intro _ _ _
        apply Pairs.bind_known (Matches.order (.setBreak false) (by simp))
        intro _ _ _
        have stopped : Pairs (Beside twins false (.output, running))
            (modifyTransmitter Transmitter.stop : Act (Link H d r) Unit)
            (modifyTransmitter Transmitter.stop)
            fun _ _ s s' => Beside twins false (.output, running) s s' ∧
              s.cell.value.transmitter.state = .idle ∧ True :=
          fun _ _ h => ⟨h.withEngine { h.engine with
            transmitter := h.engine.transmitter.stop, rests := fun _ => rfl } rfl rfl, rfl, trivial⟩
        apply Pairs.bind stopped
        intro _ _
        exact Pairs.mono ((Matches.setPace none).along (fun _ idle => idle)
          fun s _ => WP.unasked _ s) fun _ _ _ _ => And.right
      rw [listens_output]
      apply Pairs.bind closed
      rintro _ _ s s' ⟨h, idle, _⟩
      exact h.withEngine { h.engine with
        running := rfl, same := by simp [h.engine.same], rests := fun _ => idle } rfl rfl

/-- A line that does not run takes a new direction. -/
theorem pairs_redirect (target : Direction) : Pairs (BesideIn twins (direction, false))
    (modifyEngine fun e => { e with direction := target } : Act (Link H d r) Unit)
    (modifyEngine fun e => { e with direction := target })
    fun _ _ => BesideIn twins (target, false) := by
  intro s s' h
  rw [BesideIn, listens_stopped] at h
  change Link.Beside twins (Standing.listens (target, false)) (target, false) _ _
  rw [listens_stopped]
  exact h.withEngine { h.engine with
    direction := rfl
    same := by simp [h.engine.same]
    rests := fun _ => h.engine.rests (by simp) } rfl rfl

/-- The direction is noted, and the sequencer started where it is wanted. -/
theorem pairs_begin (target : Direction) (enable : Bool) :
    Pairs (BesideIn twins (target, false))
      (do
        noteNow (.turned target)
        Act.onlyIf enable start : Act (Link H d r) Unit)
      (do
        noteNow (.turned target)
        Act.onlyIf enable start)
      fun _ _ => BesideIn twins (target, enable) := by
  have noted : Matches twins (Standing.listens (target, false)) (target, false)
      (noteNow (.turned target) : Act (Link H d r) Unit) (noteNow (.turned target))
      fun _ _ => True := by
    apply Matches.now.bind
    rintro time _ rfl
    exact Matches.note (.turned target) rfl rfl fun _ => rfl
  apply Pairs.bind_known noted
  intro _ _ _
  refine Pairs.onlyIf ?_ ?_
  · rintro rfl
    exact pairs_start
  · rintro rfl s s' h
    exact h

/-- A link is claimed for the station of the one as for that of the other. -/
theorem abreast_claim : Abreast (BesideIn twins standing) (claim : Act (Link H d r) Bool) claim
    fun had had' => had' = had := by
  apply Matches.critical
  apply Matches.getEngine.bind
  intro e e' engine
  have claimed : Abreast (BesideIn twins standing)
      (modifyEngine fun e => { e with attached := true } : Act (Link H d r) Unit)
      (modifyEngine fun e => { e with attached := true }) fun _ _ => True :=
    fun _ _ h => ⟨trivial, h.withEngine { h.engine with same := by simp [h.engine.same] } rfl rfl⟩
  exact claimed.next (Abreast.pure engine.same.2.2)

theorem abreast_release : Abreast (BesideIn twins standing)
    (modifyEngine fun e => { e with attached := false } : Act (Link H d r) Unit)
    (modifyEngine fun e => { e with attached := false }) fun _ _ => True :=
  fun _ _ h => ⟨trivial, h.withEngine { h.engine with same := by simp [h.engine.same] } rfl rfl⟩

theorem pairs_setUp (config : Config) {direction : Direction} :
    Pairs (BesideIn twins (direction, false)) (setUp config : Act (Link H d r) Unit) (setUp config)
      fun _ _ => BesideIn twins (config.direction, config.dataEnabled) := by
  apply pairs_critical
  apply Pairs.bind_known Matches.getTransmitter
  rintro t t' ⟨ahead, rests⟩
  apply Pairs.bind_known (Pairs.lift (ahead.configure config))
  rintro u u' ⟨ahead', state⟩
  apply Pairs.bind_known (Matches.setTransmitter ahead' fun other => state.trans (rests other))
  intro _ _ _
  exact Pairs.bind (pairs_redirect config.direction) fun _ _ => pairs_begin _ _

/-- Links side by side, of which the first one is not in use, and is at rest without a station. -/
abbrev Vacant (twins : Twins H) (standing : Standing) (s s' : Link H d r) : Prop :=
  BesideIn twins standing s s' ∧ s.uses = free ∧
    (s.cell.value.attached = false → standing.2 = false)

/-- A link takes a station as its twin does. -/
theorem pairs_attach (config : Config) : Pairs (Vacant twins standing)
    (attach config : Act (Link H d r) (Outcome Station)) (attach config)
    fun outcome outcome' t t' =>
      (outcome' = outcome ∧ ∀ station, outcome = .ok station → station = { config }) ∧
        ∃ standing, BesideIn twins standing t t' := by
  have claimed : Pairs (Vacant twins standing) (claim : Act (Link H d r) Bool) claim
      fun had had' t t' =>
        (had' = had ∧ (had = false → standing.2 = false)) ∧ BesideIn twins standing t t' := by
    have beside : Pairs (Vacant twins standing) (claim : Act (Link H d r) Bool) claim
        fun had had' t t' => had' = had ∧ BesideIn twins standing t t' :=
      Pairs.of_imp abreast_claim fun _ _ => And.left
    have knows (s s' : Link H d r) (h : Vacant twins standing s s') :
        WP (fun _ => True) claim (fun had _ => had = false → standing.2 = false) s := by
      rw [claim, wp_critical h.2.1]
      exact h.2.2
    refine (beside.learn knows fun _ s' _ => WP.unasked _ s').mono ?_
    rintro had had' t t' ⟨⟨same, h⟩, stopped, _⟩
    exact ⟨⟨same, stopped⟩, h⟩
  rw [attach]
  apply Pairs.bind_known claimed
  rintro _ had ⟨rfl, stopped⟩
  refine Pairs.ite Iff.rfl (fun _ => Pairs.pure fun s s' h => ⟨⟨rfl, nofun⟩, standing, h⟩)
    fun fresh => ?_
  obtain ⟨direction, running⟩ := standing
  obtain rfl : running = false := stopped (Bool.eq_false_iff.mpr fresh)
  have driven : Abreast (BesideIn twins (direction, false))
      (onLine (Line.drive config.direction.pinLevel) : Act (Link H d r) Bool)
      (onLine (Line.drive config.direction.pinLevel)) fun driven driven' => driven' = driven := by
    rw [BesideIn, listens_stopped]
    exact Matches.drive _
  apply Pairs.bind_known driven
  rintro _ took rfl
  refine Pairs.ite Iff.rfl (fun _ => ?_) fun _ => ?_
  · apply Pairs.bind (pairs_setUp config)
    exact fun _ _ => Pairs.pure fun s s' h =>
      ⟨⟨rfl, fun _ same => (Except.ok.inj same).symm⟩, _, h⟩
  · apply Pairs.bind_known (Matches.critical abreast_release)
    exact fun _ _ _ => Pairs.pure fun s s' h => ⟨⟨rfl, nofun⟩, _, h⟩

theorem pairs_detach : Pairs (BesideIn twins standing) (detach : Act (Link H d r) Unit) detach
    fun _ _ t t' => ∃ standing, BesideIn twins standing t t' := by
  obtain ⟨direction, running⟩ := standing
  have stopped : Pairs (BesideIn twins (direction, running))
      (do
        Act.onlyIf (← getEngine).running halt
        modifyEngine fun e => { e with attached := false } : Act (Link H d r) Unit)
      (do
        Act.onlyIf (← getEngine).running halt
        modifyEngine fun e => { e with attached := false })
      fun _ _ => BesideIn twins (direction, false) := by
    apply Pairs.bind_known Matches.getEngine
    intro e e' engine
    rw [engine.same.2.1, engine.running]
    have halted : Pairs (BesideIn twins (direction, running))
        (Act.onlyIf running halt : Act (Link H d r) Unit) (Act.onlyIf running halt)
        fun _ _ => BesideIn twins (direction, false) := by
      refine Pairs.onlyIf (fun _ => pairs_halt) ?_
      rintro rfl s s' h
      exact h
    exact Pairs.bind halted fun _ _ => Pairs.mono abreast_release fun _ _ _ _ => And.right
  exact Pairs.mono (pairs_critical stopped) fun _ _ _ _ h => ⟨_, h⟩

end Dmx512.Link
