import Dmx512.Proofs.Station.Rdm
import Dmx512.Proofs.Station.Twins

/-!
# Turning and sending by hand on twin hardware

Stations side by side stop and start the sequencers of their links together, and turn their lines
together or are both refused by the pin. What they send by hand they send on an output whose
sequencer rests, so that the line is not listened to meanwhile. The wait for the spacing is the
same once the end of the latest RDM frame is ahead, which is when such a frame was published.
-/

namespace Dmx512.Attached

open Act Link Standard

variable {H : Type} [Hardware H] {d r : Nat} {twins : Twins H} {standing : Standing}
variable {direction : Direction} {running : Bool}

theorem matches_transmitBusy : Matches twins standing.listens standing
    (transmitBusy : Act (Link H d r) Bool) transmitBusy Eq := by
  apply Matches.critical
  apply Matches.getTransmitter.bind
  rintro t t' ⟨ahead, _⟩
  refine Pairs.ite (by rw [ahead.isBusy]) (fun _ => Abreast.pure rfl) fun _ => ?_
  apply Matches.sample.bind
  rintro status status' ⟨_, idle⟩
  exact Abreast.pure (congrArg Bool.not idle.symm)

theorem abreast_requestStop : Abreast (Beside twins standing)
    (requestStop : Act (Attached H d r) Direction) requestStop
    fun shown shown' => shown = standing.1 ∧ shown' = standing.1 := by
  apply pairs_onLink
  apply Matches.critical
  apply Matches.getEngine.bind
  intro e e' engine
  rw [engine.same.1, engine.direction]
  apply Abreast.next _ (Abreast.pure ⟨rfl, rfl⟩)
  refine Pairs.onlyIf (fun _ => ?_) fun _ _ _ h => ⟨trivial, h⟩
  exact Matches.modifyTransmitter (fun _ _ ahead => ahead.requestStop) fun _ _ => id

theorem abreast_drain : Abreast (Beside twins standing) (drain : Act (Attached H d r) Unit) drain
    fun _ _ => True := by
  rw [drain]
  apply abreast_timing.bind
  rintro timing _ rfl
  apply Pairs.get.bind
  rintro now now' ⟨station, _⟩
  have config : now'.station.config = now.station.config := by
    rw [station]
    rfl
  rw [config]
  exact Abreast.bind (pairs_onLink (matches_transmitBusy.waitWhile _))
    fun _ _ _ => Abreast.pure trivial

theorem pairs_stopSequencer : Pairs (Beside twins (direction, running))
    (stopSequencer : Act (Attached H d r) Unit) stopSequencer
    fun _ _ => Beside twins (direction, false) := by
  rw [stopSequencer]
  apply Pairs.bind_known abreast_requestStop
  rintro _ _ ⟨rfl, rfl⟩
  apply Pairs.bind_known (Pairs.onlyIf (fun _ => abreast_drain) fun _ _ _ h => ⟨trivial, h⟩)
  intro _ _ _
  exact pairs_critical pairs_halt

theorem pairs_settle (enable : Bool) : Pairs (Beside twins (direction, running))
    (settle running enable : Act (Attached H d r) Unit) (settle running enable)
    fun _ _ => Beside twins (direction, enable) := by
  cases running <;> cases enable
  · exact fun _ _ h => h
  · exact pairs_critical pairs_start
  · exact pairs_stopSequencer
  · exact fun _ _ h => h

theorem pairs_takeDirection (target : Direction) (enable : Bool) :
    Pairs (Beside twins (direction, false))
      (takeDirection target enable : Act (Attached H d r) Unit) (takeDirection target enable)
      fun _ _ => Beside twins (target, enable) := by
  rw [takeDirection]
  apply Pairs.bind (pairs_critical
    (Pairs.bind (pairs_redirect target) fun _ _ => pairs_begin target enable))
  intro _ _
  exact Pairs.mono (abreast_configure _) fun _ _ _ _ => And.right

/-- How the attempt to give lines a direction leaves two stations: where both were answered that
it was done, in the new standing. -/
abbrev Redirected (twins : Twins H) (target : Standing) (outcome outcome' : Outcome Unit)
    (s s' : Attached H d r) : Prop :=
  outcome' = outcome ∧
    ∃ standing, Beside twins standing s s' ∧ (outcome = .ok () → standing = target)

theorem pairs_turn (target : Direction) (enable : Bool) :
    Pairs (Beside twins (direction, false))
      (turn target enable : Act (Attached H d r) (Outcome Unit)) (turn target enable)
      (Redirected twins (target, enable)) := by
  have driven : Matches twins (Standing.listens (direction, false)) (direction, false)
      (Link.onLine (Line.drive target.pinLevel) : Act (Link H d r) Bool)
      (Link.onLine (Line.drive target.pinLevel)) fun driven driven' => driven' = driven := by
    rw [listens_stopped]
    exact Matches.drive target.pinLevel
  rw [turn]
  apply Pairs.bind_known (pairs_onLink driven)
  rintro took _ rfl
  refine Pairs.ite Iff.rfl (fun _ => ?_) fun _ => ?_
  · apply Pairs.bind (pairs_takeDirection target enable)
    exact fun _ _ => Pairs.pure fun s s' h => ⟨rfl, _, h, fun _ => rfl⟩
  · exact Pairs.pure fun s s' h => ⟨rfl, _, h, by simp⟩

/-- Two lines are given a direction alike, or both are refused by their pins. -/
theorem pairs_setDirection (target : Direction) (enable : Bool) : Pairs (Beside twins standing)
    (setDirection target enable : Act (Attached H d r) (Outcome Unit))
    (setDirection target enable) (Redirected twins (target, enable)) := by
  rw [setDirection]
  obtain ⟨current, running⟩ := standing
  apply Pairs.bind_known abreast_direction
  rintro _ _ ⟨rfl, rfl⟩
  refine Pairs.ite Iff.rfl (fun same => ?_) fun _ => ?_
  · subst same
    apply Pairs.bind (pairs_settle enable)
    intro _ _
    apply Pairs.bind (abreast_configure _)
    exact fun _ _ => Pairs.pure fun s s' h => ⟨rfl, _, h.2, fun _ => rfl⟩
  · have stopped : Pairs (Beside twins (current, running))
        (Act.onlyIf running stopSequencer : Act (Attached H d r) Unit)
        (Act.onlyIf running stopSequencer) fun _ _ => Beside twins (current, false) := by
      refine Pairs.onlyIf (fun _ => pairs_stopSequencer) ?_
      rintro rfl s s' h
      exact h
    exact Pairs.bind stopped fun _ _ => pairs_turn target enable

abbrev taken : Standing := (.output, false)

theorem matches_lineStatus : Matches twins standing.listens standing
    (lineStatus : Act (Link H d r) Line.Status) lineStatus fun status status' =>
      status'.txReady = status.txReady ∧ status'.txIdle = status.txIdle :=
  Matches.observe Matches.sample

theorem matches_queueFull : Matches twins standing.listens standing
    (queueFull : Act (Link H d r) Bool) queueFull Eq := by
  rw [queueFull]
  apply matches_lineStatus.bind
  rintro status status' ⟨ready, _⟩
  exact Abreast.pure (congrArg Bool.not ready.symm)

theorem matches_queueBusy : Matches twins standing.listens standing
    (queueBusy : Act (Link H d r) Bool) queueBusy Eq := by
  rw [queueBusy]
  apply matches_lineStatus.bind
  rintro status status' ⟨_, idle⟩
  exact Abreast.pure (congrArg Bool.not idle.symm)

/-- Whatever is put on a line that is taken is not listened to. -/
theorem matches_order (order : Order) (plain : order.later twins.offset = order) :
    Matches twins taken.listens taken (critical (Link.order order) : Act (Link H d r) Unit)
      (critical (Link.order order)) fun _ _ => True := by
  have given : Matches twins taken.listens taken (Link.order order : Act (Link H d r) Unit)
      (Link.order (order.later twins.offset)) fun _ _ => True := Matches.order order nofun
  rw [plain] at given
  exact Matches.critical given

theorem matches_sendBreak : Matches twins taken.listens taken
    (sendBreak : Act (Link H d r) Unit) sendBreak fun _ _ => True := by
  rw [sendBreak]
  exact (matches_order (.setBreak true) rfl).next ((Matches.waitFor rdmBreak).next
    ((matches_order (.setBreak false) rfl).next (Matches.waitFor rdmMark)))

theorem matches_sendBytes (bytes : List UInt8) : Matches twins taken.listens taken
    (sendBytes bytes : Act (Link H d r) Bool) (sendBytes bytes) Eq := by
  induction bytes with
  | nil => exact matches_queueBusy.waitWhile rdmTimeout
  | cons byte rest ih =>
      rw [sendBytes]
      apply (matches_queueFull.waitWhile rdmTimeout).bind
      rintro room _ rfl
      refine Pairs.ite Iff.rfl (fun _ => ?_) fun _ => Abreast.pure rfl
      exact (matches_order (.write byte) rfl).next ih

theorem matches_sendFrame (bytes : List UInt8) (withBreak : Bool) :
    Matches twins taken.listens taken (sendFrame bytes withBreak : Act (Link H d r) Bool)
      (sendFrame bytes withBreak) Eq := by
  rw [sendFrame]
  apply Abreast.next _ (matches_sendBytes bytes)
  exact Pairs.onlyIf (fun _ => matches_sendBreak) fun _ _ _ h => ⟨trivial, h⟩

theorem abreast_streaming : Abreast (Beside twins standing)
    (streaming : Act (Attached H d r) Bool) streaming fun streams streams' =>
      streams = (standing == (.output, true)) ∧ streams' = streams := by
  rw [streaming]
  apply abreast_direction.bind
  rintro _ _ ⟨rfl, rfl⟩
  exact Abreast.pure ⟨rfl, rfl⟩

/-- Stations side by side of which the second one has the end of the latest RDM frame later, like
all other instants. -/
abbrev Dated (twins : Twins H) (standing : Standing) : Attached H d r → Attached H d r → Prop :=
  Along twins fun s s' => Link.BesideIn twins standing s s' ∧
    s.line.journal.dating twins.offset = twins.offset

/-- The wait goes on for as long on both. -/
theorem pairs_waitSpacing (spacing : Micros) : Pairs (Dated twins standing)
    (waitSpacing spacing : Act (Attached H d r) Unit) (waitSpacing spacing)
    fun _ _ => Beside twins standing := by
  rw [waitSpacing]
  have known : Pairs (Dated twins standing) (get : Act (Attached H d r) (Attached H d r)) get
      fun now now' s s' => now'.link.counters.rdmReceiveEnd =
        now.link.counters.rdmReceiveEnd + twins.offset ∧ Beside twins standing s s' := by
    rintro s s' ⟨station, beside, dated⟩
    refine ⟨?_, station, beside⟩
    rw [beside.counters]
    exact congrArg (s.link.counters.rdmReceiveEnd + ·) dated
  apply Pairs.bind_known known
  intro now now' ending
  apply Pairs.bind_known (pairs_onLink Matches.foregroundClock)
  rintro time _ rfl
  have passed : elapsed (time + twins.offset) now'.link.counters.rdmReceiveEnd =
      elapsed time now.link.counters.rdmReceiveEnd := by
    rw [ending, elapsed_add_right]
  rw [passed]
  refine Pairs.onlyIf (fun _ => ?_) fun _ _ _ h => h
  apply Pairs.bind_known (Pairs.lift (.same (fun _ => rfl) _))
  rintro left _ rfl
  exact Pairs.mono (pairs_onLink (Matches.waitFor _)) fun _ _ _ _ => And.right

abbrev Sent {α : Type} (twins : Twins H) (outcome outcome' : α) (s s' : Attached H d r) : Prop :=
  outcome' = outcome ∧ ∃ standing, Beside twins standing s s'

theorem pairs_transmit (bytes : List UInt8) (withBreak : Bool) : Pairs (Beside twins standing)
    (transmit bytes withBreak : Act (Attached H d r) (Outcome Unit)) (transmit bytes withBreak)
    (Sent twins) := by
  have sent : Abreast (Beside twins taken)
      (onLink (sendFrame bytes withBreak) : Act (Attached H d r) Bool)
      (onLink (sendFrame bytes withBreak)) Eq := pairs_onLink (matches_sendFrame bytes withBreak)
  rw [transmit]
  apply Pairs.bind_known (pairs_setDirection .output false)
  rintro _ outcome rfl
  cases outcome with
  | error refusal => exact Pairs.pure fun s s' h => ⟨rfl, h.imp fun _ => And.left⟩
  | ok done =>
      refine Pairs.of_imp (Pairs.bind_known sent ?_) ?_
      · rintro finished _ rfl
        apply Pairs.bind_known (pairs_setDirection .input true)
        rintro _ outcome rfl
        cases outcome <;> exact Pairs.pure fun s s' h => ⟨rfl, h.imp fun _ => And.left⟩
      · rintro s s' ⟨_, h, turned⟩
        obtain rfl := turned rfl
        exact h

/-- Stations side by side, of which the first one is not in use, and knows of an RDM frame if it
is about to send. -/
abbrev Informed (twins : Twins H) (standing : Standing) (sends : Prop) (s s' : Attached H d r) :
    Prop :=
  Beside twins standing s s' ∧
    (s.link.uses = free ∧ (sends → s.dating twins = twins.offset)) ∧ True

/-- Where a sequencer streams, both are refused; otherwise they go on. -/
theorem pairs_unlessStreaming {α : Type} {valid : Prop} {refused : α}
    {sends sends' : Act (Attached H d r) α}
    (goesOn : standing ≠ (.output, true) →
      Pairs (Informed twins standing valid) sends sends' (Sent twins)) :
    Pairs (Informed twins standing (standing ≠ (.output, true) ∧ valid))
      (do if ← streaming then pure refused else sends)
      (do if ← streaming then pure refused else sends') (Sent twins) := by
  apply Pairs.bind_known (abreast_streaming.along (fun s ready =>
    (wp_streaming ready.1).mono fun _ _ same => same.2 ▸ ready) fun s _ => WP.unasked _ s)
  rintro _ streams ⟨streams', rfl⟩
  refine Pairs.ite Iff.rfl (fun _ => Pairs.pure fun s s' h => ⟨rfl, standing, h.1⟩) fun quiet => ?_
  have other : standing ≠ (.output, true) := by
    rintro rfl
    exact quiet (streams'.trans rfl)
  apply (goesOn other).of_imp
  rintro s s' ⟨h, ⟨used, dated⟩, _⟩
  exact ⟨h, ⟨used, fun valid => dated ⟨other, valid⟩⟩, trivial⟩

/-- A station that is about to send knows of an RDM frame. -/
theorem Informed.dated {sends : Prop} {s s' : Attached H d r}
    (h : Informed twins standing sends s s')
    (sent : sends) : Dated twins standing s s' :=
  ⟨h.1.1, h.1.2, h.2.1.2 sent⟩

theorem pairs_sendMessage (message : List UInt8) (spacing : Micros) :
    Pairs (Informed twins standing
        (standing ≠ (.output, true) ∧ ∃ sum, Message.validate message = .ok sum))
      (sendMessage message spacing : Act (Attached H d r) (Outcome UInt8))
      (sendMessage message spacing) (Sent twins) := by
  apply pairs_unlessStreaming
  intro _
  have numbered : Pairs
      (Informed twins standing (∃ sum, Message.validate message = .ok sum))
      (get : Act (Attached H d r) (Attached H d r)) get fun now now' s s' =>
        now'.station.transaction = now.station.transaction ∧
          Informed twins standing (∃ sum, Message.validate message = .ok sum) s s' := by
    rintro s s' h
    refine ⟨?_, h⟩
    rw [h.1.1]
    rfl
  apply Pairs.bind_known numbered
  intro now now' number
  rw [number]
  cases valid : Message.validate message with
  | error defect =>
      dsimp only
      rw [Message.prepare_of_defect valid]
      exact Pairs.pure fun s s' h => ⟨rfl, standing, h.1⟩
  | ok sum =>
      dsimp only
      rw [Message.prepare_of_valid valid]
      dsimp only
      apply Pairs.bind_known (Pairs.lift (Checked.Both.same (R := Eq) (fun _ => rfl) _))
      rintro bytes _ rfl
      refine Pairs.of_imp (Pairs.bind_known (abreast_update
        (fun station => { station with transaction := now.station.transaction + 1 })
        fun _ => rfl) ?_) fun s s' h => h.dated ⟨sum, rfl⟩
      intro _ _ _
      apply Pairs.bind (pairs_waitSpacing spacing)
      intro _ _
      apply Pairs.bind_known (pairs_transmit bytes true)
      rintro _ outcome rfl
      exact Pairs.pure fun s s' h => ⟨rfl, h⟩

theorem pairs_sendResponse (message : List UInt8) :
    Pairs (Informed twins standing
        (standing ≠ (.output, true) ∧ ∃ sum, Message.validate message = .ok sum))
      (sendResponse message : Act (Attached H d r) (Outcome Unit)) (sendResponse message)
      (Sent twins) := by
  apply pairs_unlessStreaming
  intro _
  cases valid : Message.validate message with
  | error defect => exact Pairs.pure fun s s' h => ⟨rfl, standing, h.1⟩
  | ok sum =>
      apply Pairs.bind_known (Pairs.lift (Checked.Both.same (R := Eq) (fun _ => rfl) _))
      rintro bytes _ rfl
      refine Pairs.of_imp (Pairs.bind (pairs_waitSpacing responderSpacing) ?_)
        fun s s' h => h.dated ⟨sum, rfl⟩
      exact fun _ _ => pairs_transmit bytes true

theorem pairs_sendDiscoveryResponse (uid : Uid) :
    Pairs (Informed twins standing (standing ≠ (.output, true) ∧ True))
      (sendDiscoveryResponse uid : Act (Attached H d r) (Outcome Unit))
      (sendDiscoveryResponse uid) (Sent twins) := by
  apply pairs_unlessStreaming
  intro _
  refine Pairs.of_imp (Pairs.bind (pairs_waitSpacing responderSpacing) ?_)
    fun s s' h => h.dated trivial
  exact fun _ _ => pairs_transmit (Discovery.encode uid) false

end Dmx512.Attached
