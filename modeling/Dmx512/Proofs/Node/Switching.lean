import Dmx512.Proofs.Link.Resting
import Dmx512.Proofs.Node.Agreement
import Dmx512.Proofs.Node.Sending
import Dmx512.Proofs.Node.Watching
import Dmx512.Proofs.Station.Draining
import Dmx512.Proofs.Station.Reporting

/-!
# A node switches its line

However a node is told to take a direction, and whatever is under way, it ends in one of two
states: the line stands as asked for, or its pin has refused to turn it and it is stopped in
the direction that it had. A line that stands as asked for already is not touched.
-/

namespace Dmx512.Node

open Act Link

variable {H : Type} [Hardware H] {d r : Nat} {s t : Node H d r} {station : Station}
variable {target : Direction} {enable : Bool} {answer : Answer} {allowed : Fault → Prop}

omit [Hardware H] in
/-- The pin of a station has the level of its direction. -/
theorem Sound.pinLevel_of_station (h : s.Sound) (present : s.station = some station) :
    s.link.line.journal.pinLevel? = some s.link.engine.direction.pinLevel :=
  Scene.Wired.pinLevel h.wired (h.settled.driven (h.ready present).attached)

/-- A station tells how its line stands, and leaves everything as it is. -/
theorem Sound.perform_direction (h : s.Sound) (present : s.station = some station) :
    perform .direction s =
      .ok (.direction s.link.engine.direction s.link.engine.running, s) := by
  have tells : WP (fun _ => False) (perform .direction) (fun answer t =>
      answer = .direction s.link.engine.direction s.link.engine.running ∧ t = s) s := by
    apply (wp_onStation_some present).mpr
    apply WP.bind (Attached.wp_direction h.free)
    rintro _ t ⟨rfl, rfl⟩
    exact ⟨rfl, by rw [← present]⟩
  obtain ⟨_, _, told, rfl, rfl⟩ := tells.exists_ok
  exact told

/-- How a line stands that was switched, and what its station is configured to. -/
theorem Sound.wp_setDirection (h : s.Sound) (present : s.station = some station)
    (target : Direction) (enable : Bool)
    (may : s.link.engine.sending = true → (target = .output → enable = false) →
      ({ station, link := s.link } : Attached H d r).MayDrain allowed) :
    WP allowed (perform (.setDirection target enable)) (fun answer t =>
      ∃ outcome station', answer = .ofOutcome outcome ∧ t.station = some station' ∧
        s.link.Leads (·.Switches target enable outcome ·) t.link ∧
        (outcome = .ok () → station'.config.dataEnabled = enable)) s := by
  apply (wp_onStation_some present).mpr
  apply WP.bind (Attached.wp_setDirection (h.ready present) target enable may).ran
  rintro outcome t ⟨ended, leads⟩
  obtain ⟨told, _⟩ := (Attached.wp_setDirection_station h.free target enable).elim ended
  exact ⟨outcome, t.station, rfl, rfl, leads, fun done => congrArg Prod.snd (told done)⟩

/-- What has come of a direction that was asked for. -/
theorem Sound.switches (h : s.Sound) (present : s.station = some station)
    (ended : perform (.setDirection target enable) s = .ok (answer, t)) :
    ∃ outcome station', answer = .ofOutcome outcome ∧ t.station = some station' ∧
      s.link.Leads (·.Switches target enable outcome ·) t.link ∧
      (outcome = .ok () → station'.config.dataEnabled = enable) :=
  (h.wp_setDirection present target enable fun sending _ =>
    (h.ready present).mayDrain Fault.isStall_stalled sending).elim ended

/-- A line that stands as asked for is left alone, and its station is configured so. -/
theorem Sound.setDirection_standing (h : s.Sound) (present : s.station = some station)
    (stands : (s.link.engine.direction, s.link.engine.running) = (target, enable)) :
    perform (.setDirection target enable) s = .ok (.done, { s with station := some { station with
      config := { station.config with dataEnabled := enable } } }) := by
  have leaves : WP (fun _ => False) (perform (.setDirection target enable)) (fun answer t =>
      answer = .done ∧ t = { s with station := some { station with
        config := { station.config with dataEnabled := enable } } }) s := by
    apply (wp_onStation_some present).mpr
    apply WP.bind (Attached.wp_setDirection_standing h.free stands)
    rintro _ t ⟨rfl, rfl⟩
    exact ⟨rfl, rfl⟩
  obtain ⟨_, _, left, rfl, rfl⟩ := leaves.exists_ok
  exact left

/-- Setting a direction ends in one of two states. -/
theorem Reachable.setDirection_outcome (reachable : s.Reachable)
    (present : s.station = some station)
    (ended : perform (.setDirection target enable) s = .ok (answer, t)) :
    answer = .done ∧ perform .direction t = .ok (.direction target enable, t) ∨
    answer = .refused (.line .pin) ∧ target ≠ s.link.engine.direction ∧
      (∃ time earlier,
        t.link.line.journal = ⟨time, .pin target.pinLevel false⟩ :: earlier) ∧
      perform .direction t = .ok (.direction s.link.engine.direction false, t) ∧
      t.link.line.journal.pinLevel? = s.link.line.journal.pinLevel? ∧
      ∀ alarm, t.link.line.journal.alarm? alarm = none := by
  have sound := reachable.sound
  have acted := act_of_perform ended
  have sound' := (sound.act acted).sound sound
  have watchful' := sound.act_watchful reachable.watchful acted
  obtain ⟨outcome, station', rfl, present', leads, _⟩ := sound.switches present ended
  have tells := sound'.perform_direction present'
  cases outcome with
  | ok done =>
      obtain ⟨direction, running, _⟩ := Scene.standing_iff.mp leads.scene.done
      have stands : (t.link.engine.direction, t.link.engine.running) = (target, enable) :=
        Prod.ext direction running
      obtain ⟨rfl, rfl⟩ := Prod.mk.inj stands
      exact .inl ⟨rfl, tells⟩
  | error refusal =>
      obtain ⟨direction, stopped, _⟩ := Scene.standing_iff.mp leads.scene.failed
      obtain ⟨rfl, other, time, earlier, journal, _⟩ := leads.scene.refusal
      have stands : (t.link.engine.direction, t.link.engine.running) =
        (s.link.engine.direction, false) := Prod.ext direction stopped
      have level := sound.pinLevel_of_station present
      have level' := sound'.pinLevel_of_station present'
      rw [(Prod.mk.inj stands).1, (Prod.mk.inj stands).2] at tells
      rw [(Prod.mk.inj stands).1] at level'
      exact .inr ⟨rfl, other, ⟨time, earlier, journal⟩, tells, level'.trans level.symm,
        (sound'.atRest watchful'.watched stopped).disarmed⟩

/-- A direction that was set is set again without a trace. -/
theorem Sound.setDirection_again (h : s.Sound) (present : s.station = some station)
    (ended : perform (.setDirection target enable) s = .ok (.done, t)) :
    perform (.setDirection target enable) t = .ok (.done, t) := by
  obtain ⟨outcome, station', answered, present', leads, configured⟩ := h.switches present ended
  cases outcome with
  | error refusal => cases answered
  | ok done =>
      obtain ⟨direction, running, _⟩ := Scene.standing_iff.mp leads.scene.done
      have sound' := ((wp_perform h _).elim ended).sound h
      have left := sound'.setDirection_standing present' (Prod.ext direction running)
      rw [left, ← configured rfl, ← present']

/-- A direction that is set, or refused. A node that is told to take a direction answers, unless
it sends, is not to go on, and its drain never ends; on a clock that moves on, it does answer if
its drain timeout is no more than half of the range. Either the line then stands as asked for;
or the pin has refused to turn it, which was the last thing that happened: then it is stopped
in the direction that it had, its pin has the level that it had, and no alarm is set. Where the
line stands as asked for already, the node is left as it is but for the configuration of its
station; so a direction that was set may be set again without a trace. -/
theorem Reachable.sets_direction (reachable : s.Reachable) (present : s.station = some station)
    (target : Direction) (enable : Bool) :
    (∀ fault, perform (.setDirection target enable) s = .error fault → fault.IsStall ∧
      s.link.engine.sending = true ∧ (target = .output → enable = false) ∧
      Link.waitWhile Attached.transmitBusy
        (station.config.drainTimeoutFor s.link.engine.transmitter.timing) s.link.asked =
          .error .stalled) ∧
    (Ticking H d r →
      (station.config.drainTimeoutFor s.link.engine.transmitter.timing).toNat ≤ 2147483648 →
      ∃ answer t, perform (.setDirection target enable) s = .ok (answer, t)) ∧
    (∀ answer t, perform (.setDirection target enable) s = .ok (answer, t) →
      answer = .done ∧ perform .direction t = .ok (.direction target enable, t) ∨
      answer = .refused (.line .pin) ∧ target ≠ s.link.engine.direction ∧
        (∃ time earlier,
          t.link.line.journal = ⟨time, .pin target.pinLevel false⟩ :: earlier) ∧
        perform .direction t = .ok (.direction s.link.engine.direction false, t) ∧
        t.link.line.journal.pinLevel? = s.link.line.journal.pinLevel? ∧
        ∀ alarm, t.link.line.journal.alarm? alarm = none) ∧
    (perform .direction s = .ok (.direction target enable, s) →
      ∃ t, perform (.setDirection target enable) s = .ok (.done, t) ∧ t.link = s.link) ∧
    ∀ t, perform (.setDirection target enable) s = .ok (.done, t) →
      perform (.setDirection target enable) t = .ok (.done, t) := by
  have sound := reachable.sound
  have ready := sound.ready present
  have stalls : WP (fun fault => (fault.IsStall ∧
      Link.waitWhile Attached.transmitBusy
        (station.config.drainTimeoutFor s.link.engine.transmitter.timing) s.link.asked =
          .error .stalled) ∧ s.link.engine.sending = true ∧ (target = .output → enable = false))
      (perform (.setDirection target enable)) (fun _ _ => True) s :=
    (sound.wp_setDirection present target enable fun sending stops =>
      (ready.mayDrain_or_stall sending).allow fun _ stall => ⟨stall, sending, stops⟩).mono
        fun _ _ _ => trivial
  refine ⟨fun fault stopped => ?_, fun ticking short => ?_, fun answer t => ?_, fun stands => ?_,
    fun t ended => ?_⟩
  · obtain ⟨⟨stall, endless⟩, sending, stops⟩ := stalls.allows stopped
    exact ⟨stall, sending, stops, endless⟩
  · obtain ⟨answer, t, ended, _⟩ := (sound.wp_setDirection present target enable
      fun sending _ => ready.mayDrain_ticking ticking short sending).exists_ok
    exact ⟨answer, t, ended⟩
  · exact reachable.setDirection_outcome present
  · have told := (sound.perform_direction present).symm.trans stands
    simp only [Except.ok.injEq, Prod.mk.injEq, Answer.direction.injEq, and_true] at told
    exact ⟨_, sound.setDirection_standing present (Prod.ext told.1 told.2), rfl⟩
  · exact sound.setDirection_again present ended

/-- An output with its break on the line, and little time to drain. -/
def brieflyDrained (H : Type) : List (Action H) :=
  [.perform (.attach { direction := .output, drainTimeout := some 1000 }),
    .perform (.interrupt .transmitTimer)]

/-- A line is turned while its break is on it, and another one is not, as its pin refuses. -/
theorem Reachable.sets_direction_turns :
    (∃ s t : Node Ticker 0 0, s.Reachable ∧ s.link.engine.transmitter.state = .lineBreak ∧
      perform (.setDirection .input true) s = .ok (.done, t) ∧
      perform .direction t = .ok (.direction .input true, t) ∧
      perform (.setDirection .input true) t = .ok (.done, t)) ∧
    ∃ s t : Node Bench 0 0, s.Reachable ∧ s.link.engine.transmitter.state = .data ∧
      perform (.setDirection .input true) s = .ok (.refused (.line .pin), t) ∧
      perform .direction t = .ok (.direction .output false, t) ∧
      t.link.line.journal.pinLevel? = s.link.line.journal.pinLevel? ∧
      ∀ alarm, t.link.line.journal.alarm? alarm = none := by
  constructor
  · have carried : (powerUp {} : Node Ticker 0 0).Ends (brieflyDrained Ticker) fun s =>
        s.station = some { config := { direction := .output, drainTimeout := some 1000 } } ∧
          s.link.engine.transmitter.state = .lineBreak ∧
          ∀ outcome, perform (.setDirection .input true) s = .ok outcome → outcome.1 = .done := by
      decide +kernel
    obtain ⟨s, ran, present, state, done⟩ := carried
    have reachable : s.Reachable := ⟨{}, _, ran⟩
    have short : (1000 : Micros).toNat ≤ 2147483648 := by decide
    obtain ⟨_, ends, outcome, _, again⟩ := Reachable.sets_direction reachable present .input true
    obtain ⟨answer, t, ended⟩ := ends ticking_ticker short
    obtain rfl : answer = .done := done _ ended
    rcases outcome .done t ended with ⟨_, stands⟩ | ⟨refused, _⟩
    · exact ⟨s, t, reachable, state, ended, stands, again t ended⟩
    · cases refused
  · have carried : (powerUp {} : Node Bench 0 0).Ends (refusedTurn.take 7) fun s =>
        s.station = some { config := { direction := .output } } ∧
          s.link.engine.direction = .output ∧ s.link.engine.transmitter.state = .data ∧
          ∃ outcome, perform (.setDirection .input true) s = .ok outcome ∧
            outcome.1 = .refused (.line .pin) := by
      decide +kernel
    obtain ⟨s, ran, present, output, state, ⟨_, t⟩, ended, rfl⟩ := carried
    have reachable : s.Reachable := ⟨{}, _, ran⟩
    obtain ⟨_, _, outcome, _⟩ := Reachable.sets_direction reachable present .input true
    rcases outcome _ t ended with ⟨done, _⟩ | ⟨_, _, _, stands, level, alarms⟩
    · cases done
    · exact ⟨s, t, reachable, state, ended, output ▸ stands, level, alarms⟩

end Dmx512.Node
