import Dmx512.Proofs.Link.TwinSequencers
import Dmx512.Proofs.Station.Shelves
import Dmx512.Station.SendData

/-!
# Stations on twin hardware

A station keeps one instant, the start of the window in which it counts packets. Of two stations
one is ahead if they differ in that instant only. Stations on links side by side read the same
frames and statistics, and set the same timing.
-/

namespace Dmx512

open Act Link Standard

/-- A window that was opened later. -/
def Window.later (offset : Micros) (window : Window) : Window :=
  { window with start := window.start + offset }

def Sampler.later (offset : Micros) (view : Sampler) : Sampler :=
  { view with window := view.window.map (Window.later offset) }

/-- The snapshot with the end of the latest RDM frame at a later time. -/
def Snapshot.later (shift : Micros) (snapshot : Snapshot) : Snapshot :=
  { snapshot with rdmReceiveEnd := snapshot.rdmReceiveEnd + shift }

def Station.later (offset : Micros) (station : Station) : Station :=
  { station with view := station.view.later offset }

@[simp] theorem Window.later_zero (window : Window) : window.later 0 = window := by
  simp [Window.later]

@[simp] theorem Station.later_zero (station : Station) : station.later 0 = station := by
  have same : Window.later 0 = id := funext Window.later_zero
  simp [Station.later, Sampler.later, same]

@[simp] theorem Snapshot.later_zero (snapshot : Snapshot) : snapshot.later 0 = snapshot := by
  simp [Snapshot.later]

/-- A sample that is taken later closes the window that was opened later, or leaves it. -/
theorem Sampler.sample_later (view : Sampler) (counters : Counters) (now shift offset : Micros) :
    Checked.Both (fun sampled sampled' => sampled' = sampled.later offset)
      (view.sample counters now)
      ((view.later offset).sample (counters.later shift) (now + offset)) := by
  have ahead : (view.later offset).window = view.window.map (Window.later offset) := rfl
  rw [Sampler.sample, Sampler.sample, ahead]
  cases opened : view.window with
  | none => exact rfl
  | some window =>
      dsimp only [Option.map_some, Window.later]
      rw [elapsed_add_right]
      refine .ite Iff.rfl (fun _ => ?_) fun _ => rfl
      apply Checked.Both.bind (.same (fun _ => rfl) _)
      rintro rate _ rfl
      exact rfl

namespace Attached

variable {H : Type} [Hardware H] {d r : Nat} {twins : Twins H} {standing : Standing}
variable {α β : Type}

/-- Stations side by side, on links that are related. -/
def Along (twins : Twins H) (links : Link H d r → Link H d r → Prop) (s s' : Attached H d r) :
    Prop :=
  s'.station = s.station.later twins.offset ∧ links s.link s'.link

abbrev Beside (twins : Twins H) (standing : Standing) : Attached H d r → Attached H d r → Prop :=
  Along twins (Link.BesideIn twins standing)

variable {links : Link H d r → Link H d r → Prop}

/-- What links do side by side they do under their stations. -/
theorem pairs_onLink {act act' : Act (Link H d r) α} {R : α → α → Prop}
    {links' : Link H d r → Link H d r → Prop}
    (h : Pairs links act act' fun a a' t t' => R a a' ∧ links' t t') :
    Pairs (Along twins links) (onLink act) (onLink act') fun a a' t t' =>
      R a a' ∧ Along twins links' t t' := by
  rintro s s' ⟨station, beside⟩
  apply (h s.link s'.link beside).bind
  rintro ⟨a, t⟩ ⟨a', t'⟩ ⟨answers, beside'⟩
  exact ⟨answers, station, beside'⟩

/-- So do critical sections that answer nothing, and may change the standing. -/
theorem pairs_critical {act act' : Act (Link H d r) Unit} {standing' : Standing}
    (h : Pairs (Link.BesideIn twins standing) act act' fun _ _ => Link.BesideIn twins standing') :
    Pairs (Beside twins standing) (onLink (critical act)) (onLink (critical act'))
      fun _ _ => Beside twins standing' := by
  rintro s s' ⟨station, beside⟩
  apply (Link.pairs_critical h s.link s'.link beside).bind
  rintro ⟨_, t⟩ ⟨_, t'⟩ beside'
  exact ⟨station, beside'⟩

/-- What is changed of both stations alike leaves them side by side. -/
theorem abreast_update (f : Station → Station)
    (later : ∀ station : Station,
      f (station.later twins.offset) = (f station).later twins.offset) :
    Abreast (Along twins links) (update f : Act (Attached H d r) Unit) (update f)
      fun _ _ => True := by
  rintro s s' ⟨station, beside⟩
  refine ⟨trivial, ?_, beside⟩
  change f s'.station = _
  rw [station]
  exact later _

theorem abreast_configure (f : Config → Config) :
    Abreast (Along twins links) (configure f : Act (Attached H d r) Unit) (configure f)
      fun _ _ => True :=
  abreast_update _ fun _ => rfl

/-- The direction of a line is that of its standing. -/
theorem abreast_direction : Abreast (Beside twins standing)
    (direction : Act (Attached H d r) (Direction × Bool)) direction
    fun shown shown' => shown = standing ∧ shown' = standing := by
  apply pairs_onLink
  apply Matches.observe
  apply Matches.getEngine.bind
  intro e e' engine
  refine Abreast.pure ⟨Prod.ext engine.direction engine.running, Prod.ext ?_ ?_⟩
  · exact engine.same.1.trans engine.direction
  · exact engine.same.2.1.trans engine.running

theorem abreast_timing : Abreast (Beside twins standing)
    (timing : Act (Attached H d r) Timing) timing Eq := by
  apply pairs_onLink
  apply Matches.critical
  apply Matches.getTransmitter.bind
  rintro t t' ⟨ahead, _⟩
  exact Abreast.pure ahead.timing.symm

theorem abreast_applyTiming (f : Config → Config) : Abreast (Beside twins standing)
    (applyTiming f : Act (Attached H d r) Timing) (applyTiming f) Eq := by
  rw [applyTiming]
  apply (abreast_configure f).next
  apply Pairs.get.bind
  rintro now now' ⟨station, _⟩
  have config : now'.station.config = now.station.config := by
    rw [station]
    rfl
  rw [config]
  apply pairs_onLink
  apply Matches.critical
  apply Matches.getTransmitter.bind
  rintro t t' ⟨ahead, rests⟩
  apply Abreast.bind (Pairs.lift (ahead.configure now.station.config))
  rintro u u' ⟨ahead', state⟩
  apply (Matches.setTransmitter ahead' fun other => state.trans (rests other)).next
  exact Abreast.pure ahead'.timing.symm

theorem abreast_queueFrame (frame : List UInt8) : Abreast (Beside twins standing)
    (queueFrame frame : Act (Attached H d r) Unit) (queueFrame frame) fun _ _ => True := by
  apply pairs_onLink
  apply Matches.critical
  apply Matches.getTransmitter.bind
  rintro t t' ⟨ahead, rests⟩
  apply Abreast.bind (Pairs.lift (ahead.queue frame))
  rintro u u' ⟨ahead', state⟩
  apply (Matches.setTransmitter ahead' fun other => state.trans (rests other)).next
  apply Matches.now.bind
  rintro time _ rfl
  exact Matches.note (.queued frame) rfl rfl fun _ => rfl

theorem abreast_sendData (frame : List UInt8) : Abreast (Beside twins standing)
    (sendData frame : Act (Attached H d r) (Outcome Unit)) (sendData frame) Eq := by
  rw [sendData]
  exact Pairs.ite Iff.rfl (fun _ => Abreast.pure rfl) fun _ =>
    (abreast_queueFrame frame).next (Abreast.pure rfl)

theorem abreast_sendSlots (slots : List UInt8) : Abreast (Beside twins standing)
    (sendSlots slots : Act (Attached H d r) (Outcome Unit)) (sendSlots slots) Eq := by
  rw [sendSlots]
  exact Pairs.ite Iff.rfl (fun _ => Abreast.pure rfl) fun _ =>
    (abreast_queueFrame _).next (Abreast.pure rfl)

theorem abreast_takeDmx : Abreast (Beside twins standing)
    (takeDmx : Act (Attached H d r) (Option DmxFrame)) takeDmx Eq := by
  rintro s s' ⟨station, beside⟩
  rw [takeDmx_eq, takeDmx_eq, beside.dmxStore]
  cases s.link.dmxStore.pop? with
  | none => exact ⟨rfl, station, beside⟩
  | some popped =>
      refine ⟨rfl, ?_, { beside with dmxStore := rfl }⟩
      rw [station]
      rfl

theorem abreast_peekDmx : Abreast (Beside twins standing)
    (peekDmx : Act (Attached H d r) (Option DmxFrame)) peekDmx Eq := by
  rintro s s' ⟨station, beside⟩
  rw [peekDmx_eq, peekDmx_eq, beside.dmxStore]
  cases s.link.dmxStore.peek? with
  | none => exact ⟨rfl, station, beside⟩
  | some popped =>
      refine ⟨rfl, ?_, beside⟩
      rw [station]
      rfl

theorem abreast_takeChangedDmx : Abreast (Beside twins standing)
    (takeChangedDmx : Act (Attached H d r) (Option DmxFrame)) takeChangedDmx Eq := by
  rw [takeChangedDmx]
  apply abreast_takeDmx.bind
  rintro taken _ rfl
  cases taken with
  | none => exact Abreast.pure rfl
  | some frame =>
      apply Pairs.get.bind
      rintro now now' ⟨station, _⟩
      have lastChanged : now'.station.lastChanged = now.station.lastChanged := by
        rw [station]
        rfl
      refine Pairs.ite (by rw [lastChanged]) (fun _ => Abreast.pure rfl) fun _ => ?_
      apply Abreast.next (abreast_update (fun station => { station with lastChanged := some frame })
        fun _ => rfl)
      exact Abreast.pure rfl

theorem abreast_takeRdm : Abreast (Beside twins standing)
    (takeRdm : Act (Attached H d r) (Option RdmFrame)) takeRdm Eq := by
  rintro s s' ⟨station, beside⟩
  rw [takeRdm_eq, takeRdm_eq, beside.rdmStore]
  cases s.link.rdmStore.pop? with
  | none => exact ⟨rfl, station, beside⟩
  | some popped =>
      refine ⟨rfl, ?_, { beside with rdmStore := rfl }⟩
      rw [station]
      rfl

theorem abreast_peekRdm : Abreast (Beside twins standing)
    (peekRdm : Act (Attached H d r) (Option RdmFrame)) peekRdm Eq := by
  rintro s s' ⟨station, beside⟩
  rw [peekRdm_eq, peekRdm_eq, beside.rdmStore]
  cases s.link.rdmStore.peek? with
  | none => exact ⟨rfl, station, beside⟩
  | some popped =>
      refine ⟨rfl, ?_, beside⟩
      rw [station]
      rfl

theorem abreast_flush : Abreast (Beside twins standing)
    (flush : Act (Attached H d r) Unit) flush fun _ _ => True := by
  rintro s s' ⟨station, beside⟩
  rw [flush_eq, flush_eq]
  refine ⟨trivial, station, { beside with dmxStore := ?_, rdmStore := ?_ }⟩
  · exact congrArg Frame.Store.clear beside.dmxStore
  · exact congrArg Frame.Store.clear beside.rdmStore

/-- By how much the end of the latest RDM frame is ahead at the second of two stations. -/
abbrev dating (twins : Twins H) (s : Attached H d r) : Micros :=
  s.link.line.journal.dating twins.offset

theorem pairs_sample : Pairs (Beside twins standing)
    (sample : Act (Attached H d r) Counters) sample fun counters counters' t t' =>
      counters' = counters.later (t.dating twins) ∧ Beside twins standing t t' := by
  rw [sample]
  apply Pairs.bind_known (pairs_onLink Matches.foregroundClock)
  rintro now _ rfl
  apply Pairs.get_bind
  rintro s s' ⟨station, beside⟩
  have sampled := Sampler.sample_later s.station.view s.link.counters now
    (s.dating twins) twins.offset
  rw [← beside.counters, show s.station.view.later twins.offset = s'.station.view by
    rw [station]; rfl] at sampled
  apply Pairs.bind_known (Pairs.lift sampled)
  rintro view _ rfl _ _ ⟨rfl, rfl⟩
  refine ⟨beside.counters, ?_, beside⟩
  exact congrArg (fun station => { station with view := view.later twins.offset }) station

theorem pairs_statistics : Pairs (Beside twins standing)
    (statistics : Act (Attached H d r) Snapshot) statistics fun snapshot snapshot' t t' =>
      snapshot' = snapshot.later (t.dating twins) ∧ Beside twins standing t t' := by
  rw [statistics]
  apply Pairs.bind pairs_sample
  rintro counters counters' s s' ⟨rfl, station, beside⟩
  refine ⟨?_, station, beside⟩
  change s'.station.view.snapshot _ = _
  rw [station]
  rfl

theorem abreast_updatesPerSecond : Abreast (Beside twins standing)
    (updatesPerSecond : Act (Attached H d r) UInt32) updatesPerSecond Eq := by
  rw [updatesPerSecond]
  apply Pairs.bind pairs_sample
  rintro counters counters' s s' ⟨_, station, beside⟩
  refine ⟨?_, station, beside⟩
  change _ = s'.station.view.rate
  rw [station]
  rfl

theorem abreast_resetCounters : Abreast (Beside twins standing)
    (resetCounters : Act (Attached H d r) Unit) resetCounters fun _ _ => True := by
  rintro s s' ⟨station, beside⟩
  refine ⟨trivial, ?_, beside⟩
  change ({ s'.station with view := s'.station.view.reset s'.link.counters } : Station) = _
  rw [station, beside.counters]
  rfl

end Attached

end Dmx512
