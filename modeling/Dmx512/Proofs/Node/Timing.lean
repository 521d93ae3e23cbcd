import Dmx512.Bench
import Dmx512.Proofs.Node.Reporting

/-!
# The timing follows the configuration

At every node that a run leads to, the timing in use is the one that the configuration of the
station gives for the longest frame which the period has to fit: the frame on the wire, or the
longer one of it and of the frame queued behind it. It makes no difference in what order the
configuration was set, frames were queued and put on the wire, or alarms were served.
-/

namespace Dmx512

namespace Transmitter

variable {t : Transmitter} {config : Config}

theorem payload_of_unqueued (unqueued : t.queued = none) : t.payload = t.wire.length := by
  rw [payload, unqueued]

theorem payload_of_queued {frame : List UInt8} (queued : t.queued = some frame) :
    t.payload = max t.wire.length frame.length := by
  rw [payload, queued]

/-- A timing that was resolved from what a configuration asks for is the one that the
configuration gives. -/
theorem Timed.of_config (h : t.Timed) (request : t.timing.request = config.request) :
    config.timing t.payload = .ok t.timing :=
  (Timing.forPayload_of_request request).symm.trans h

end Transmitter

namespace Node

open Act Link

variable {H : Type} [Hardware H] {d r : Nat} {s : Node H d r} {station : Station}

omit [Hardware H] in
/-- In use is what the configuration gives. -/
theorem Tuned.timing (h : s.Tuned) (present : s.station = some station) :
    station.config.timing s.link.engine.transmitter.payload =
      .ok s.link.engine.transmitter.timing :=
  h.timed.of_config (h.request station present)

/-- A station tells the timing in use, and leaves everything as it is. -/
theorem Sound.perform_timing (h : s.Sound) (present : s.station = some station) :
    perform .timing s = .ok (.timing s.link.engine.transmitter.timing, s) := by
  have tells : WP (fun _ => False) (perform .timing) (fun answer t =>
      answer = .timing s.link.engine.transmitter.timing ∧ t = s) s := by
    refine (wp_onStation_some present).mpr (WP.bind_iff.mpr ?_)
    apply Attached.wp_onLink.mpr
    rw [wp_critical h.free]
    have shared : s.link.cell.exclusive = false := (Prod.mk.inj h.free).2
    refine ⟨rfl, ?_⟩
    change ({ s with
      link := { s.link with cell := { s.link.cell with exclusive := false } }
      station := some station } : Node H d r) = s
    rw [← present, ← shared]
  obtain ⟨_, _, told, rfl, rfl⟩ := tells.exists_ok
  exact told

/-- The timing follows configuration and payload. At every node that a run leads to, the timing
that a station tells is the one that the configuration which it tells gives for the frame on the
wire, or, while a frame is queued, for the longer one of the two. -/
theorem Reachable.timing_follows_config (reachable : s.Reachable)
    (present : s.station = some station) :
    ∃ timing, perform .timing s = .ok (.timing timing, s) ∧
      perform .config s = .ok (.config station.config, s) ∧
      (s.link.engine.transmitter.queued = none →
        station.config.timing s.link.engine.transmitter.wire.length = .ok timing) ∧
      ∀ frame, s.link.engine.transmitter.queued = some frame →
        station.config.timing (max s.link.engine.transmitter.wire.length frame.length) =
          .ok timing := by
  have follows := reachable.tuned.timing present
  refine ⟨s.link.engine.transmitter.timing, reachable.sound.perform_timing present,
    perform_config present, fun unqueued => ?_, fun frame queued => ?_⟩
  · rwa [Transmitter.payload_of_unqueued unqueued] at follows
  · rwa [Transmitter.payload_of_queued queued] at follows

/-- A station asks for the shortest period, queues four slots, asks for a break out of bounds,
and queues a start code alone in place of the slots. -/
def shortestRun : List (Action Bench) :=
  [.perform (.attach { period := 0, direction := .output }), .perform (.sendSlots [1, 2, 3, 4]),
    .perform (.setBreakTime 2000000), .perform (.sendData [0])]

/-- As long as the start code is queued behind a full frame, the period fits the full frame;
when it is on the wire, the period is its own. -/
theorem Reachable.timing_follows_config_queued :
    ∃ s t : Node Bench 0 0, ∃ config : Config, ∃ long short : Timing,
      s.Reachable ∧ s.act (.perform (.interrupt .transmitTimer)) = .ok t ∧
      (perform .timing s = .ok (.timing long, s) ∧ perform .config s = .ok (.config config, s) ∧
        config.timing (max 513 1) = .ok long ∧ long.effective = 1022632) ∧
      perform .timing t = .ok (.timing short, t) ∧ perform .config t = .ok (.config config, t) ∧
        config.timing 1 = .ok short ∧ short.effective = 1000104 := by
  let config : Config := { breakTime := 2000000, period := 0, direction := .output }
  have carried : (powerUp {} : Node Bench 0 0).Ends shortestRun fun s =>
      s.station = some { config } ∧ s.link.engine.transmitter.queued = some [0] ∧
        s.link.engine.transmitter.wire.length = 513 ∧
        s.Ends [.perform (.interrupt .transmitTimer)] fun t =>
          t.station = some { config } ∧ t.link.engine.transmitter.queued = none ∧
            t.link.engine.transmitter.wire.length = 1 := by
    decide +kernel
  obtain ⟨s, ran, present, queued, full, t, served, present', unqueued, one⟩ := carried
  have reachable : s.Reachable := ⟨{}, shortestRun, ran⟩
  obtain ⟨_, acted, left⟩ := run_cons served
  obtain rfl := Except.ok.inj left
  obtain ⟨long, told, asked, _, follows⟩ := Reachable.timing_follows_config reachable present
  obtain ⟨short, told', asked', follows', _⟩ :=
    Reachable.timing_follows_config (reachable.act acted) present'
  have gives := follows [0] queued
  have gives' := follows' unqueued
  rw [full] at gives
  rw [one] at gives'
  refine ⟨s, _, config, long, short, reachable, acted, ⟨told, asked, gives, ?_⟩,
    told', asked', gives', ?_⟩
  · have found : ∀ timing, config.timing (max 513 1) = .ok timing → timing.effective = 1022632 := by
      decide +kernel
    exact found long gives
  · have found : ∀ timing, config.timing 1 = .ok timing → timing.effective = 1000104 := by
      decide +kernel
    exact found short gives'

end Node

end Dmx512
