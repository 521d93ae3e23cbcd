import Dmx512.Proofs.Act
import Dmx512.Proofs.Station.Shelves
import Dmx512.Station.Attachment
import Dmx512.Station.Rdm

/-!
# What a station keeps for itself

What an act leaves alone of the records of a station is read off its text: an act on
the link leaves all of them alone, and an act made of others leaves alone what each of
them does. `Attached.Keeps view act` says so of what is seen through `view`.
-/

namespace Dmx512

/-- The break and the mark that a configuration asks for, within their bounds. -/
def Config.settings (config : Config) : Micros × Micros :=
  (Timing.clampBreak config.breakTime, Timing.clampMark config.markTime)

/-- What a configuration asks of the timing: break and mark within their bounds, and a
period. -/
def Config.request (config : Config) : (Micros × Micros) × Micros :=
  (config.settings, config.period)

namespace Attached

open Act

variable {H : Type} {d r : Nat} {α β γ : Type} {view : Station → γ}

/-- Whatever an act does, it leaves alone what is seen of the station. -/
def Keeps (view : Station → γ) (act : Act (Attached H d r) α) : Prop :=
  ∀ s, WP (fun _ => True) act (fun _ t => view t.station = view s.station) s

namespace Keeps

theorem pure (a : α) : Keeps view (Pure.pure a : Act (Attached H d r) α) := fun _ => rfl

theorem bind {act : Act (Attached H d r) α} {next : α → Act (Attached H d r) β}
    (first : Keeps view act) (second : ∀ a, Keeps view (next a)) : Keeps view (act >>= next) := by
  intro s
  apply WP.bind (first s)
  intro a t kept
  exact (second a t).mono fun _ _ kept' => kept'.trans kept

theorem ite {c : Prop} [Decidable c] {yes no : Act (Attached H d r) α}
    (first : Keeps view yes) (second : Keeps view no) : Keeps view (if c then yes else no) := by
  split
  · exact first
  · exact second

theorem onlyIf (c : Bool) {act : Act (Attached H d r) Unit} (h : Keeps view act) :
    Keeps view (Act.onlyIf c act) :=
  .ite h (.pure ())

theorem get : Keeps view (MonadState.get : Act (Attached H d r) (Attached H d r)) := fun _ => rfl

theorem lift (a : Checked α) : Keeps view (liftM a : Act (Attached H d r) α) := by
  intro s
  cases a with
  | ok a => exact rfl
  | error fault => exact trivial

theorem onLink (act : Act (Link H d r) α) : Keeps view (Attached.onLink act) := by
  intro s
  rw [WP, Attached.onLink]
  cases act s.link with
  | ok outcome => exact rfl
  | error fault => exact trivial

theorem onEngine (act : Act (Link H d r) α) : Keeps view (Attached.onEngine act) := .onLink _

theorem update {f : Station → Station} (h : ∀ station, view (f station) = view station) :
    Keeps view (Attached.update f : Act (Attached H d r) Unit) :=
  fun s => h s.station

end Keeps

section Readings

variable (read : ∀ (station : Station) (dmxFrame : DmxFrame) (rdmFrame : RdmFrame),
  view { station with dmxFrame, rdmFrame } = view station)
include read

theorem Keeps.takeDmx : Keeps view (Attached.takeDmx : Act (Attached H d r) _) := by
  intro s
  rw [WP, Attached.takeDmx_eq]
  cases s.link.dmxStore.pop? with
  | none => exact rfl
  | some taken => exact read s.station _ _

theorem Keeps.peekDmx : Keeps view (Attached.peekDmx : Act (Attached H d r) _) := by
  intro s
  rw [WP, Attached.peekDmx_eq]
  cases s.link.dmxStore.peek? with
  | none => exact rfl
  | some frame => exact read s.station _ _

theorem Keeps.takeChangedDmx
    (reported : ∀ (station : Station) (lastChanged : Option DmxFrame),
      view { station with lastChanged } = view station) :
    Keeps view (Attached.takeChangedDmx : Act (Attached H d r) _) := by
  refine (Keeps.takeDmx read).bind fun taken => ?_
  cases taken with
  | none => exact .pure _
  | some frame =>
      exact Keeps.get.bind fun s => .ite (.pure _) (.bind (.update fun station =>
        reported station _) fun _ => .pure _)

theorem Keeps.takeRdm : Keeps view (Attached.takeRdm : Act (Attached H d r) _) := by
  intro s
  rw [WP, Attached.takeRdm_eq]
  cases s.link.rdmStore.pop? with
  | none => exact rfl
  | some taken => exact read s.station _ _

theorem Keeps.peekRdm : Keeps view (Attached.peekRdm : Act (Attached H d r) _) := by
  intro s
  rw [WP, Attached.peekRdm_eq]
  cases s.link.rdmStore.peek? with
  | none => exact rfl
  | some frame => exact read s.station _ _

end Readings

theorem Keeps.resetCounters
    (reset : ∀ (station : Station) (counters : Counters),
      view { station with view := station.view.reset counters } = view station) :
    Keeps view (Attached.resetCounters : Act (Attached H d r) Unit) :=
  Keeps.get.bind fun _ => .update fun station => reset station _

theorem Keeps.sample [Hardware H]
    (sampled : ∀ (station : Station) (counters : Counters) (now : Micros) (sampler : Sampler),
      station.view.sample counters now = .ok sampler →
        view { station with view := sampler } = view station) :
    Keeps view (Attached.sample : Act (Attached H d r) Counters) := by
  refine (Keeps.onLink _).bind fun now s => ?_
  obtain ⟨sampler, ended⟩ := s.station.view.sample_ok s.link.counters now
  simp only [WP.bind_iff, WP.get_iff, ended, WP.lift_ok_iff]
  exact sampled s.station _ now sampler ended

theorem Keeps.applyTiming
    (set : ∀ (station : Station) (config : Config), view { station with config } = view station)
    (f : Config → Config) :
    Keeps view (Attached.applyTiming f : Act (Attached H d r) Timing) :=
  (Keeps.update fun station => set station _).bind fun _ => Keeps.get.bind fun _ => .onEngine _

theorem Keeps.flush : Keeps view (Attached.flush : Act (Attached H d r) Unit) := by
  intro s
  rw [WP, Attached.flush_eq]
  exact rfl

theorem Keeps.sendData [Hardware H] (frame : List UInt8) :
    Keeps view (Attached.sendData frame : Act (Attached H d r) (Outcome Unit)) := by
  rw [Attached.sendData]
  exact .ite (.pure _) (.bind (.onEngine _) fun _ => .pure _)

theorem Keeps.sendSlots [Hardware H] (slots : List UInt8) :
    Keeps view (Attached.sendSlots slots : Act (Attached H d r) (Outcome Unit)) := by
  rw [Attached.sendSlots]
  exact .ite (.pure _) (.bind (.onEngine _) fun _ => .pure _)

section Turning

variable [Hardware H]
variable (turned : ∀ (station : Station) (direction : Direction) (dataEnabled : Bool),
  view { station with config := { station.config with direction, dataEnabled } } = view station)

theorem Keeps.stopSequencer :
    Keeps view (Attached.stopSequencer : Act (Attached H d r) Unit) := by
  refine (Keeps.onEngine _).bind fun direction => .bind (.onlyIf _ ?_) fun _ => .onEngine _
  exact (Keeps.onEngine _).bind fun _ => Keeps.get.bind fun _ =>
    (Keeps.onLink _).bind fun _ => .pure ()

theorem Keeps.settle (running enable : Bool) :
    Keeps view (Attached.settle running enable : Act (Attached H d r) Unit) := by
  cases running <;> cases enable
  · exact .pure ()
  · exact .onEngine _
  · exact .stopSequencer
  · exact .pure ()

include turned

theorem Keeps.setDirection (target : Direction) (enable : Bool) :
    Keeps view (Attached.setDirection target enable : Act (Attached H d r) _) := by
  refine (Keeps.onLink _).bind fun answer => .ite ?_ ?_
  · exact (Keeps.settle _ _).bind fun _ =>
      (Keeps.update fun station => turned station _ _).bind fun _ => .pure _
  · refine (Keeps.onlyIf _ .stopSequencer).bind fun _ => (Keeps.onLink _).bind fun driven => ?_
    refine .ite (.bind ?_ fun _ => .pure _) (.pure _)
    exact (Keeps.onEngine _).bind fun _ => .update fun station => turned station _ _

theorem Keeps.transmit (bytes : List UInt8) (withBreak : Bool) :
    Keeps view (Attached.transmit bytes withBreak : Act (Attached H d r) _) := by
  refine (Keeps.setDirection turned _ _).bind fun outcome => ?_
  cases outcome with
  | error refusal => exact .pure _
  | ok done =>
      refine (Keeps.onLink _).bind fun finished =>
        (Keeps.setDirection turned _ _).bind fun outcome => ?_
      cases outcome <;> exact .pure _

omit turned in
theorem Keeps.waitSpacing (spacing : Micros) :
    Keeps view (Attached.waitSpacing spacing : Act (Attached H d r) Unit) :=
  Keeps.get.bind fun _ => (Keeps.onLink _).bind fun _ =>
    .onlyIf _ ((Keeps.lift _).bind fun _ => .onLink _)

omit [Hardware H] turned in
theorem Keeps.streaming : Keeps view (Attached.streaming : Act (Attached H d r) Bool) :=
  (Keeps.onLink _).bind fun _ => .pure _

theorem Keeps.sendResponse (message : List UInt8) :
    Keeps view (Attached.sendResponse message : Act (Attached H d r) _) := by
  refine Keeps.streaming.bind fun streaming => .ite (.pure _) ?_
  cases Message.validate message with
  | error defect => exact .pure _
  | ok sum =>
      exact (Keeps.lift _).bind fun _ => (Keeps.waitSpacing _).bind fun _ => .transmit turned _ _

theorem Keeps.sendDiscoveryResponse (uid : Uid) :
    Keeps view (Attached.sendDiscoveryResponse uid : Act (Attached H d r) _) :=
  Keeps.streaming.bind fun _ => .ite (.pure _)
    ((Keeps.waitSpacing _).bind fun _ => .transmit turned _ _)

theorem Keeps.sendMessage
    (counted : ∀ (station : Station) (transaction : UInt8),
      view { station with transaction } = view station)
    (message : List UInt8) (spacing : Micros) :
    Keeps view (Attached.sendMessage message spacing : Act (Attached H d r) _) := by
  refine Keeps.streaming.bind fun streaming => .ite (.pure _) (Keeps.get.bind fun s => ?_)
  dsimp only
  split
  · exact .pure _
  · exact (Keeps.lift _).bind fun _ => (Keeps.update fun station => counted station _).bind fun _ =>
      (Keeps.waitSpacing _).bind fun _ => (Keeps.transmit turned _ _).bind fun _ => .pure _

end Turning

end Attached

end Dmx512
