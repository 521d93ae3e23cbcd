import Dmx512.Bench
import Dmx512.Proofs.Link.Capacity
import Dmx512.Proofs.Node.Timing

/-!
# No run faults

No run of a node stops with a fault but that of a wait on a clock that stands still: no sum or
product leaves its word, no difference is negative, nothing is read or written outside a buffer
or divided by zero, and the engine is not entered while it is in use, whatever is asked of the
node, whatever its hardware does, and wherever interrupts are served. What is behind this holds
of every state in between, and what a node answers can be used without a fault as well.
-/

namespace Dmx512

open Standard

/-- A period that keeps to the floor has a rate. -/
theorem Timing.refreshRate_ok {timing : Timing} (floor : periodFloor ≤ timing.effective) :
    ∃ rate, timing.refreshRate = .ok rate := by
  refine ⟨_, Checked.div_of_ne_zero fun zero => ?_⟩
  rw [zero] at floor
  exact absurd floor (by decide)

/-- What an answer holds can be looked at without a fault: a frame lies within the buffer it is
read into, and a period is not zero. -/
def Answer.Usable : Answer → Prop
  | .dmx answer => ∀ frame, answer = some frame → frame.length ≤ dmxCapacity
  | .rdm answer => ∀ frame, answer = some frame → frame.data.length ≤ rdmCapacity
  | .timing used => ∃ rate, used.refreshRate = .ok rate
  | _ => True

theorem Answer.usable_ofOutcome (outcome : Outcome Unit) : (Answer.ofOutcome outcome).Usable := by
  cases outcome <;> exact trivial

namespace Attached

open Act

variable {H : Type} {d r : Nat} {allowed : Fault → Prop} {s : Attached H d r}

section Frames

variable (fits : s.link.scene.Fits)
include fits

theorem wp_takeDmx_fits : WP allowed takeDmx (fun answer _ =>
    ∀ frame, answer = some frame → frame.length ≤ dmxCapacity) s := by
  rw [WP, takeDmx_eq]
  cases popped : s.link.dmxStore.pop? with
  | none => rintro _ ⟨⟩
  | some taken =>
      rintro _ ⟨⟩
      exact (fits.dmxStore.pop? popped).1

theorem wp_peekDmx_fits : WP allowed peekDmx (fun answer _ =>
    ∀ frame, answer = some frame → frame.length ≤ dmxCapacity) s := by
  rw [WP, peekDmx_eq]
  cases shown : s.link.dmxStore.peek? with
  | none => rintro _ ⟨⟩
  | some frame =>
      rintro _ ⟨⟩
      exact fits.dmxStore.peek? shown

theorem wp_takeChangedDmx_fits : WP allowed takeChangedDmx (fun answer _ =>
    ∀ frame, answer = some frame → frame.length ≤ dmxCapacity) s := by
  apply WP.bind (wp_takeDmx_fits fits)
  intro taken t short
  cases taken with
  | none => exact nofun
  | some frame =>
      simp only [changed?, WP.bind_iff, WP.get_iff, WP.ite_iff, WP.pure_iff, wp_update]
      exact ⟨fun _ => nofun, fun _ => short⟩

theorem wp_takeRdm_fits : WP allowed takeRdm (fun answer _ =>
    ∀ frame, answer = some frame → frame.data.length ≤ rdmCapacity) s := by
  rw [WP, takeRdm_eq]
  cases popped : s.link.rdmStore.pop? with
  | none => rintro _ ⟨⟩
  | some taken =>
      rintro _ ⟨⟩
      exact (fits.rdmStore.pop? popped).1

theorem wp_peekRdm_fits : WP allowed peekRdm (fun answer _ =>
    ∀ frame, answer = some frame → frame.data.length ≤ rdmCapacity) s := by
  rw [WP, peekRdm_eq]
  cases shown : s.link.rdmStore.peek? with
  | none => rintro _ ⟨⟩
  | some frame =>
      rintro _ ⟨⟩
      exact fits.rdmStore.peek? shown

end Frames

end Attached

namespace Node

open Act Link

variable {H : Type} [Hardware H] {d r : Nat} {s t : Node H d r}

/-- Where an operation leaves a resolved timing in use, its answer can be used. -/
abbrev Answers (answer : Answer) (t : Node H d r) : Prop :=
  t.link.engine.transmitter.Timed → answer.Usable

omit [Hardware H] in
/-- Without a station nothing is answered that could fault. -/
theorem wp_onStation_usable {act : Act (Attached H d r) Answer}
    (usable : ∀ station, s.station = some station → WP (fun _ => True) act
      (fun answer t => t.link.engine.transmitter.Timed → answer.Usable)
      { station, link := s.link }) :
    WP (fun _ => True) (onStation act) Answers s := by
  cases present : s.station with
  | none => exact (wp_onStation_none present).mpr fun _ => trivial
  | some station => exact (wp_onStation_some present).mpr (usable station present)

omit [Hardware H] in
/-- What is answered whatever an act ends with. -/
theorem wp_onStation_plain {α : Type} {act : Act (Attached H d r) α}
    {next : α → Act (Attached H d r) Answer}
    (plain : ∀ a t, WP (fun _ => True) (next a) (fun answer _ => answer.Usable) t) :
    WP (fun _ => True) (onStation (act >>= next)) Answers s :=
  wp_onStation_usable fun _ _ => WP.bind (WP.unasked _ _) fun a t _ =>
    (plain a t).mono fun _ _ usable _ => usable

omit [Hardware H] in
/-- The timing that is answered is the one in use. -/
theorem wp_onStation_timing (h : s.Sound) (f : Config → Config) :
    WP (fun _ => True) (onStation do pure (.timing (← Attached.applyTiming f))) Answers s := by
  refine wp_onStation_usable fun station _ => ?_
  apply WP.bind ((Attached.wp_applyTiming h.free f).allow fun _ _ => trivial)
  rintro timing t ⟨_, _, rfl⟩ timed
  exact Timing.refreshRate_ok timed.fits.floor

/-- Whatever is asked of a node that is within its buffers, the answer can be used. -/
theorem wp_perform_usable (h : s.Sound) (fits : s.link.scene.Fits) (operation : Operation) :
    WP (fun _ => True) (perform operation) Answers s := by
  cases operation with
  | attach config =>
      refine WP.bind (WP.unasked _ _) fun outcome t _ => ?_
      cases outcome <;> exact fun _ => trivial
  | detach =>
      cases present : s.station with
      | none => exact (wp_detach_none present).mpr fun _ => trivial
      | some station =>
          exact (wp_detach_some present).mpr ((WP.unasked _ _).mono fun _ _ _ _ => trivial)
  | interrupt interrupt =>
      exact WP.bind (WP.unasked _ _) fun _ _ _ _ => trivial
  | counters => exact fun _ => trivial
  | setBreakTime | setMarkTime | setPeriod => exact wp_onStation_timing h _
  | timing =>
      cases present : s.station with
      | none => exact (wp_onStation_none present).mpr fun _ => trivial
      | some station =>
          rw [WP, h.perform_timing present]
          exact fun timed => Timing.refreshRate_ok timed.fits.floor
  | setDirection | sendData | sendSlots | sendResponse | sendDiscoveryResponse =>
      exact wp_onStation_plain fun outcome _ => Answer.usable_ofOutcome outcome
  | sendMessage =>
      refine wp_onStation_plain fun outcome _ => ?_
      cases outcome <;> exact trivial
  | config | direction | flush | statistics | updatesPerSecond | resetCounters | transaction =>
      exact wp_onStation_plain fun _ _ => trivial
  | takeDmx =>
      exact wp_onStation_usable fun _ _ => WP.bind (Attached.wp_takeDmx_fits fits)
        fun _ _ short _ => short
  | peekDmx =>
      exact wp_onStation_usable fun _ _ => WP.bind (Attached.wp_peekDmx_fits fits)
        fun _ _ short _ => short
  | takeChangedDmx =>
      exact wp_onStation_usable fun _ _ => WP.bind (Attached.wp_takeChangedDmx_fits fits)
        fun _ _ short _ => short
  | takeRdm =>
      exact wp_onStation_usable fun _ _ => WP.bind (Attached.wp_takeRdm_fits fits)
        fun _ _ short _ => short
  | peekRdm =>
      exact wp_onStation_usable fun _ _ => WP.bind (Attached.wp_peekRdm_fits fits)
        fun _ _ short _ => short

omit [Hardware H] in
/-- At power-up nothing is held yet. -/
theorem fits_powerUp (hardware : H) : (powerUp hardware : Node H d r).link.scene.Fits where
  receiver := Receiver.fits_powerUp
  transmitter := ⟨List.length_replicate.le, nofun, Nat.zero_le _⟩
  dmxStore := Frame.Store.all_empty (by decide)
  rdmStore := Frame.Store.all_empty (by decide)

/-- No run from power-up faults, unless it waits on a clock that stands still: neither is a sum,
a difference or a product out of its word, nor a position outside its buffer, nor a divisor
zero, nor the engine entered while it is in use. Where a run ends, the engine is free. In every
state that the steps of the link lead through, cursors, frames and stores are within their
buffers; and whatever is asked of the node next, the answer can be used. -/
theorem powerUp_run_faultless (hardware : H) (actions : List (Action H)) :
    (∀ fault, (powerUp hardware : Node H d r).run actions = .error fault → fault = .stalled) ∧
      ∀ t, (powerUp hardware : Node H d r).run actions = .ok t →
        t.link.cell.isFree = true ∧
        Steps (fun _ => True) (powerUp hardware : Node H d r).link.scene t.link.scene ∧
        (∀ m, Steps (fun _ => True) (powerUp hardware : Node H d r).link.scene m → m.Fits) ∧
        ∀ operation answer u, perform operation t = .ok (answer, u) → answer.Usable := by
  have fresh : (powerUp hardware : Node H d r).Sound := .powerUp hardware
  refine ⟨fun _ => fresh.run_stalls, fun t ran => ?_⟩
  have steps := (fresh.run_moves ran).steps
  have within (m : Scene d r)
      (leads : Steps (fun _ => True) (powerUp hardware : Node H d r).link.scene m) : m.Fits :=
    leads.fits fresh.sound (fits_powerUp hardware)
  have sound : t.Sound := fresh.run ran
  refine ⟨isFree_of_uses sound.free, steps, within, fun operation answer u performed => ?_⟩
  have reachable : t.Reachable := ⟨hardware, actions, ran⟩
  have acted : t.act (.perform operation) = .ok u := act_of_perform performed
  exact (wp_perform_usable sound (within _ steps) operation).elim performed
    (reachable.act acted).tuned.timed

def fullFrame : List (Action Bench) :=
  .perform (.attach { direction := .output }) ::
    List.replicate 3 (.perform (.interrupt .transmitTimer))

theorem powerUp_run_faultless_full :
    ∃ t u : Node Bench 0 0, ∃ timing rate, (powerUp {}).run fullFrame = .ok t ∧
      t.link.engine.transmitter.sent = dmxCapacity ∧ t.link.cell.isFree = true ∧
      t.link.scene.Fits ∧ perform .timing t = .ok (.timing timing, u) ∧
      timing.refreshRate = .ok rate := by
  have carried : (powerUp {} : Node Bench 0 0).Ends fullFrame fun t =>
      t.station.isSome = true ∧ t.link.engine.transmitter.sent = dmxCapacity := by
    decide +kernel
  obtain ⟨t, ran, present, full⟩ := carried
  obtain ⟨station, attached⟩ := Option.isSome_iff_exists.mp present
  obtain ⟨free, steps, within, usable⟩ :=
    (powerUp_run_faultless (d := 0) (r := 0) ({} : Bench) fullFrame).2 t ran
  have reachable : t.Reachable := ⟨{}, fullFrame, ran⟩
  have told := reachable.sound.perform_timing attached
  obtain ⟨rate, rated⟩ := usable _ _ _ told
  exact ⟨t, t, _, rate, ran, full, free, within _ steps, told, rated⟩

end Node

end Dmx512
