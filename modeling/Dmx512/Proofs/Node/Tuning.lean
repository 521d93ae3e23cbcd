import Dmx512.Proofs.Link.Pacing
import Dmx512.Proofs.Node.Runs
import Dmx512.Proofs.Station.Keeping

/-!
# The timing of a station is in use

The timing in use is resolved for the frames of its transmitter, from the break, the mark
and the period that the station asks for. So only what sets the break or the mark changes
them, and the period may be set at any time without touching them.
-/

namespace Dmx512

/-- The break and the mark that an operation sets are those in use. -/
def Timing.AgreesWith (timing : Timing) : Operation → Prop
  | .setBreakTime us => Timing.clampBreak us = timing.breakTime
  | .setMarkTime us => Timing.clampMark us = timing.markTime
  | _ => True

instance (timing : Timing) : (operation : Operation) → Decidable (timing.AgreesWith operation)
  | .setBreakTime us => inferInstanceAs (Decidable (Timing.clampBreak us = timing.breakTime))
  | .setMarkTime us => inferInstanceAs (Decidable (Timing.clampMark us = timing.markTime))
  | .attach _ | .detach | .interrupt _ | .counters | .setDirection _ _ | .setPeriod _ | .timing
  | .config | .direction | .sendData _ | .sendSlots _ | .takeDmx | .peekDmx | .takeChangedDmx
  | .takeRdm | .peekRdm | .flush | .statistics | .updatesPerSecond | .resetCounters
  | .transaction | .sendMessage _ _ | .sendResponse _ | .sendDiscoveryResponse _ =>
    .isTrue trivial

/-- The operations that may start or stop a sequencer or turn the line. -/
def Operation.Controls : Operation → Prop
  | .attach _ | .detach | .setDirection _ _ => True
  | .sendMessage _ _ | .sendResponse _ | .sendDiscoveryResponse _ => True
  | _ => False

def Operation.Samples : Operation → Prop
  | .statistics | .updatesPerSecond => True
  | _ => False

namespace Attached

open Act Link

variable {H : Type} {d r : Nat}

/-- A timing that is set asks for what is resolved, and is answered. -/
theorem wp_applyTiming {s : Attached H d r} (used : s.link.uses = free) (f : Config → Config) :
    WP Fault.IsStall (applyTiming f) (fun timing t =>
      t.station.config = f s.station.config ∧
      t.link.cell.value.transmitter.timing.request = t.station.config.request ∧
      t.link.cell.value.transmitter.timing = timing) s := by
  have configures (config : Config) : Ensures Fault.IsStall (0, true) (fun _ => True)
      (do
        let transmitter ← (← getTransmitter).configure config
        setTransmitter transmitter
        pure transmitter.timing : Act (Link H d r) Timing)
      (fun timing _ t => t.engine.transmitter.timing.request = config.request ∧
        t.engine.transmitter.timing = timing) := by
    intro link _ _
    obtain ⟨timing, configured⟩ := link.cell.value.transmitter.configure_ok config
    simp only [WP.bind_iff, wp_getTransmitter, configured, WP.lift_ok_iff, wp_setTransmitter,
      WP.pure_iff]
    exact ⟨⟨(Transmitter.Timed.configure configured).2, rfl⟩, rfl⟩
  rw [applyTiming, WP.bind_iff]
  change WP _ (get >>= _) _ { s with station := { s.station with config := f s.station.config } }
  rw [WP.bind_iff, WP.get_iff, onEngine, wp_onLink]
  refine ((configures (f s.station.config)).critical s.link used trivial).mono ?_
  rintro timing link ⟨⟨request, answered⟩, _⟩
  exact ⟨rfl, request, answered⟩

end Attached

namespace Node

open Act Link

variable {H : Type} {d r : Nat} {s t : Node H d r}

/-- The timing in use is resolved from what the station asks for. -/
structure Tuned (s : Node H d r) : Prop where
  timed : s.link.cell.value.transmitter.Timed
  request : ∀ station, s.station = some station →
    s.link.cell.value.transmitter.timing.request = station.config.request

/-- Break and mark are what the station asks for. -/
theorem Tuned.settings (h : s.Tuned) (station : Station) (present : s.station = some station) :
    s.link.cell.value.transmitter.timing.settings = station.config.settings :=
  congrArg Prod.fst (h.request station present)

/-- Both what is asked for and what is in use stay the same. -/
theorem Tuned.congr (h : s.Tuned) (timed : t.link.cell.value.transmitter.Timed)
    (request : t.link.cell.value.transmitter.timing.request =
      s.link.cell.value.transmitter.timing.request)
    (asked : t.station.map (·.config.request) = s.station.map (·.config.request)) : t.Tuned := by
  refine ⟨timed, fun station present => ?_⟩
  cases before : s.station with
  | none => simp [before, present] at asked
  | some old =>
      rw [before, present] at asked
      rw [request, h.request old before]
      exact (Option.some.inj asked).symm

variable [Hardware H]

omit [Hardware H] in
/-- What an act of the station leaves alone, it leaves alone at a node. -/
theorem wp_onStation_keeps {γ : Type} {view : Station → γ} {act : Act (Attached H d r) Answer}
    (keeps : Attached.Keeps view act) :
    WP (fun _ => True) (onStation act) (fun _ t => t.station.map view = s.station.map view) s := by
  cases present : s.station with
  | none =>
      apply (wp_onStation_none present).mpr
      rw [present]
  | some station =>
      refine (wp_onStation_some present).mpr ((keeps _).mono fun _ t kept => ?_)
      exact congrArg some kept

omit [Hardware H] in
/-- What sets a timing changes what the station asks for, and brings it into use. -/
theorem wp_onStation_adjusts (h : s.Sound) (f : Config → Config) :
    WP Fault.IsStall (onStation do pure (.timing (← Attached.applyTiming f))) (fun _ t =>
      t.station.map (·.config) = s.station.map (f ·.config) ∧
      ∀ before, s.station = some before →
        t.link.cell.value.transmitter.timing.request = (f before.config).request) s := by
  cases present : s.station with
  | none =>
      apply (wp_onStation_none present).mpr
      rw [present]
      exact ⟨rfl, nofun⟩
  | some before =>
      apply (wp_onStation_some present).mpr
      refine WP.bind (Attached.wp_applyTiming h.free f) fun _ t ⟨asked, request, _⟩ => ?_
      refine ⟨congrArg some asked, ?_⟩
      rintro _ ⟨⟩
      rw [request, asked]

/-- Attaching leaves a link and its station as the relation of attaching says. -/
theorem wp_attach_leads (h : s.Sound) (config : Config) :
    WP Fault.IsStall (attach config) (fun _ t =>
      (∃ refusal, s.link.scene.Attaches config (.error refusal) t.link.scene) ∧
          t.station = s.station ∨
        s.link.scene.Attaches config (.ok { config }) t.link.scene ∧
          t.station = some { config }) s := by
  rw [attach, WP.bind_iff, wp_onLink]
  apply (Link.wp_attach config h.free).mono
  rintro outcome link ⟨attaches, _⟩
  cases outcome with
  | error refusal => exact .inl ⟨⟨refusal, attaches⟩, rfl⟩
  | ok station =>
      cases attaches with
      | attaches absent configured turns =>
          exact .inr ⟨.attaches absent configured turns, rfl⟩

omit [Hardware H] in
/-- A station that attaches asks for the timing that it sets. -/
theorem Sound.tuned_attached (h : s.Sound) {config : Config}
    (attaches : s.link.scene.Attaches config (.ok { config }) t.link.scene)
    (station : t.station = some { config }) : t.Tuned := by
  cases attaches with
  | attaches absent configured turns =>
      obtain ⟨timed, request⟩ := Transmitter.Timed.configure configured
      have stopped := h.sound.stopped_of_absent absent
      have steps := turns.steps stopped (h.settled.released stopped) rfl
      obtain ⟨timed', request'⟩ := Steps.timed steps timed
      refine ⟨timed', fun present same => ?_⟩
      rw [station] at same
      obtain rfl := Option.some.inj same
      exact (request' (by simp [Step.Kind.IsSteering])).trans request

theorem wp_detach_absent :
    WP (fun _ => True) (perform .detach) (fun _ (t : Node H d r) => t.station = none) s := by
  cases present : s.station with
  | none => exact (wp_detach_none present).mpr present
  | some station => exact (wp_detach_some present).mpr ((WP.unasked _ _).mono fun _ _ _ => rfl)

/-- What is seen of a station is changed by attaching and detaching; besides that by what reads
frames or samples, resets the counters, turns the line or sets a timing, where it is changed at
all. -/
theorem wp_perform_keeps {γ : Type} (view : Station → γ) {operation : Operation}
    (read : ∀ (station : Station) (dmxFrame : DmxFrame) (rdmFrame : RdmFrame),
      view { station with dmxFrame, rdmFrame } = view station)
    (reported : operation = .takeChangedDmx → ∀ (station : Station)
      (lastChanged : Option DmxFrame), view { station with lastChanged } = view station)
    (sampled : operation.Samples → ∀ (station : Station) (counters : Counters) (now : Micros)
      (sampler : Sampler), station.view.sample counters now = .ok sampler →
        view { station with view := sampler } = view station)
    (reset : operation = .resetCounters → ∀ (station : Station) (counters : Counters),
      view { station with view := station.view.reset counters } = view station)
    (turned : operation.Controls → ∀ (station : Station) (direction : Direction)
      (dataEnabled : Bool) (transaction : UInt8), view { station with
        transaction, config := { station.config with direction, dataEnabled } } = view station)
    (set : operation.kinds .adjust → (∀ config, operation ≠ .attach config) ∧
      ∀ (station : Station) (config : Config), view { station with config } = view station)
    (stays : operation ≠ .detach) :
    WP (fun _ => True) (perform operation)
      (fun _ t => t.station.map view = s.station.map view) s := by
  have turned' (controls : operation.Controls) (station : Station) (direction : Direction)
      (dataEnabled : Bool) := turned controls station direction dataEnabled station.transaction
  cases operation with
  | attach config => exact absurd rfl ((set Step.Kind.frameless_adjust).1 config)
  | setBreakTime | setMarkTime | setPeriod =>
      exact wp_onStation_keeps (.bind (.applyTiming (set rfl).2 _) fun _ => .pure _)
  | detach => exact absurd rfl stays
  | interrupt interrupt =>
      rw [perform, WP.bind_iff, wp_onLink]
      exact (WP.unasked _ _).mono fun _ _ _ => rfl
  | counters => exact rfl
  | timing => exact wp_onStation_keeps (.bind (.onEngine _) fun _ => .pure _)
  | direction => exact wp_onStation_keeps (.bind (.onLink _) fun _ => .pure _)
  | config | transaction => exact wp_onStation_keeps (.bind .get fun _ => .pure _)
  | sendData => exact wp_onStation_keeps (.bind (.sendData _) fun _ => .pure _)
  | sendSlots => exact wp_onStation_keeps (.bind (.sendSlots _) fun _ => .pure _)
  | flush => exact wp_onStation_keeps (.bind .flush fun _ => .pure _)
  | takeDmx => exact wp_onStation_keeps (.bind (.takeDmx read) fun _ => .pure _)
  | peekDmx => exact wp_onStation_keeps (.bind (.peekDmx read) fun _ => .pure _)
  | takeChangedDmx =>
      exact wp_onStation_keeps (.bind (.takeChangedDmx read (reported rfl)) fun _ => .pure _)
  | takeRdm => exact wp_onStation_keeps (.bind (.takeRdm read) fun _ => .pure _)
  | peekRdm => exact wp_onStation_keeps (.bind (.peekRdm read) fun _ => .pure _)
  | resetCounters =>
      exact wp_onStation_keeps (.bind (.resetCounters (reset rfl)) fun _ => .pure _)
  | statistics | updatesPerSecond =>
      exact wp_onStation_keeps (.bind (.bind (.sample (sampled trivial)) fun _ =>
        .bind .get fun _ => .pure _) fun _ => .pure _)
  | setDirection =>
      exact wp_onStation_keeps (.bind (.setDirection (turned' trivial) _ _) fun _ => .pure _)
  | sendResponse =>
      exact wp_onStation_keeps (.bind (.sendResponse (turned' trivial) _) fun _ => .pure _)
  | sendDiscoveryResponse =>
      exact wp_onStation_keeps (.bind (.sendDiscoveryResponse (turned' trivial) _) fun _ =>
        .pure _)
  | sendMessage =>
      have counted (station : Station) := turned trivial station station.config.direction
        station.config.dataEnabled
      refine wp_onStation_keeps (.bind (.sendMessage (turned' trivial) counted _ _)
        fun outcome => ?_)
      cases outcome <;> exact .pure _

/-- No action leaves a station with another timing than it asks for. -/
theorem Sound.act_tuned (h : s.Sound) (tuned : s.Tuned) {action : Action H}
    (acted : s.act action = .ok t) : t.Tuned := by
  have performed := h.act acted
  obtain ⟨timed, request⟩ := Steps.timed performed.moves.steps tuned.timed
  cases action with
  | disturb change =>
      cases acted
      exact ⟨tuned.timed, tuned.request⟩
  | perform operation =>
      obtain ⟨answer, ended⟩ := perform_of_act acted
      by_cases other : operation.kinds .adjust
      · have adjusts (f : Config → Config)
            (sets : perform operation = onStation (H := H) (d := d) (r := r)
              do pure (.timing (← Attached.applyTiming f))) : t.Tuned := by
          obtain ⟨asked, request⟩ := (wp_onStation_adjusts h f).elim (sets ▸ ended)
          refine ⟨timed, fun station present => ?_⟩
          rw [present] at asked
          obtain ⟨before, was, same⟩ := Option.map_eq_some_iff.mp asked.symm
          rw [request before was, same]
        cases operation with
        | setBreakTime us | setMarkTime us | setPeriod us => exact adjusts _ rfl
        | attach config =>
            rcases (wp_attach_leads h config).elim ended with
              ⟨⟨_, attaches⟩, same⟩ | ⟨attaches, same⟩
            · have engine : t.link.cell.value = s.link.cell.value := attaches.failed
              exact tuned.congr timed (congrArg (·.transmitter.timing.request) engine)
                (congrArg (Option.map (·.config.request)) same)
            · exact h.tuned_attached attaches same
        | _ => simp [Operation.kinds, Step.Kind.IsSteering] at other
      · by_cases stays : operation = .detach
        · subst stays
          refine ⟨timed, fun station present => ?_⟩
          rw [wp_detach_absent.elim ended] at present
          contradiction
        · have asked := (wp_perform_keeps (·.config.request) (fun _ _ _ => rfl)
            (fun _ _ _ => rfl) (fun _ _ _ _ _ _ => rfl) (fun _ _ _ => rfl) (fun _ _ _ _ _ => rfl)
            (fun adjusts => absurd adjusts other) stays).elim ended
          exact tuned.congr timed (request other) asked

omit [Hardware H] in
theorem Tuned.powerUp (hardware : H) : (powerUp hardware : Node H d r).Tuned :=
  ⟨.powerUp, nofun⟩

/-- In every node that a run from power-up leads to, the timing of the station is in
use. -/
theorem Reachable.tuned (h : s.Reachable) : s.Tuned :=
  h.induct (fun _ _ _ sound tuned acted => sound.act_tuned tuned acted) Tuned.powerUp

end Node

end Dmx512
