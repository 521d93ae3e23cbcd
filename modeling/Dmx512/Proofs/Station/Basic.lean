import Dmx512.Proofs.Link.Waiting
import Dmx512.Proofs.Station.Shelves
import Dmx512.Station.SendData

/-!
# Settings and readings of a station make calm steps

`Attached.Does kinds act` is the contract of an act of a station: where the
engine of its link is free, the act makes only steps of the `kinds`. Timing,
send data, received frames and statistics leave the sequencers alone, and of
these only send data queues frames, each call the one that it is given.
-/

namespace Dmx512.Attached

open Act Link Standard

variable {H : Type} {d r : Nat} {allowed : Fault → Prop} {kinds : Step.Kind → Prop}
variable {s : Attached H d r} {α β : Type}

/-- The contract of an act of a station: it makes only steps of some kinds. -/
def Does (kinds : Step.Kind → Prop) (act : Act (Attached H d r) α) : Prop :=
  ∀ s : Attached H d r, s.link.uses = free → s.link.scene.Sound →
    WP Fault.IsStall act (fun _ t => Moves kinds s.link t.link) s

theorem wp_onLink {act : Act (Link H d r) α} {post : α → Attached H d r → Prop} :
    WP allowed (onLink act) post s ↔
      WP allowed act (fun a link => post a { s with link }) s.link := by
  unfold WP onLink
  cases act s.link <;> rfl

theorem wp_update {f : Station → Station} {post : Unit → Attached H d r → Prop} :
    WP allowed (update f) post s ↔ post () { s with station := f s.station } := Iff.rfl

/-- What an act under exclusive use makes of the scene of the link. -/
theorem wp_onEngine {act : Act (Link H d r) α} {pre : Scene d r → Prop}
    {post : α → Scene d r → Scene d r → Prop} (h : Link.Ensures allowed (0, true) pre act post)
    (used : s.link.uses = free) (holds : pre s.link.scene) :
    WP allowed (onEngine act)
      (fun a t => post a s.link.scene t.link.scene ∧ t.link.uses = s.link.uses) s :=
  wp_onLink.mpr (h.critical s.link used holds)

/-- What an operation that queues no frame does to the link of a station: it stays
attached and is left settled, and where it sends before and after, its sequencer was
left alone by all its steps. -/
structure Served (kinds : Step.Kind → Prop) (s t : Link H d r) : Prop where
  moves : Moves kinds s t
  attached : t.cell.value.attached = true
  settled : t.scene.Settled
  calm : s.cell.value.sending = true → t.cell.value.sending = true →
    Moves (fun kind => kind.IsCalm ∧ kinds kind) s t

/-- What an operation that queues frames does to the link of a station, and to
nothing else of it. -/
structure Queues (frames : List (List UInt8)) (s t : Link H d r) : Prop where
  moves : Moves (· = .queue) s t
  queued : t.line.journal.queued = s.line.journal.queued ++ frames

namespace Does

theorem pure (a : α) : Does kinds (Pure.pure a : Act (Attached H d r) α) :=
  fun s _ _ => Moves.refl s.link

theorem bind {act : Act (Attached H d r) α} {next : α → Act (Attached H d r) β}
    (first : Does kinds act) (second : ∀ a, Does kinds (next a)) : Does kinds (act >>= next) := by
  intro s used sound
  apply WP.bind (first s used sound)
  intro a t moves
  exact (second a t (moves.uses.trans used) (moves.sound sound)).mono fun _ _ => moves.trans

theorem ite {c : Prop} [Decidable c] {yes no : Act (Attached H d r) α}
    (first : Does kinds yes) (second : Does kinds no) : Does kinds (if c then yes else no) := by
  split
  · exact first
  · exact second

theorem get : Does kinds (MonadState.get : Act (Attached H d r) (Attached H d r)) :=
  fun s _ _ => Moves.refl s.link

theorem update (f : Station → Station) :
    Does kinds (Attached.update f : Act (Attached H d r) Unit) :=
  fun s _ _ => Moves.refl s.link

theorem lift {checked : Checked α} (answers : ∃ a, checked = .ok a) :
    Does kinds (liftM checked : Act (Attached H d r) α) := by
  obtain ⟨a, rfl⟩ := answers
  exact .pure a

theorem onLink {act : Act (Link H d r) α} (h : Link.Does Fault.IsStall free kinds act) :
    Does kinds (Attached.onLink act) :=
  fun s used sound => wp_onLink.mpr (h s.link used sound)

theorem onEngine {act : Act (Link H d r) α} (h : Link.Does Fault.IsStall (0, true) kinds act) :
    Does kinds (Attached.onEngine act) :=
  .onLink h.critical

end Does

theorem Does.direction : Does kinds (Attached.direction : Act (Attached H d r) _) :=
  .onLink (.observe fun s _ _ => Moves.refl s)

theorem Does.timing : Does kinds (Attached.timing : Act (Attached H d r) Timing) :=
  .onEngine fun s _ _ => Moves.refl s

theorem Does.applyTiming (within : kinds .adjust) (f : Config → Config) :
    Does kinds (Attached.applyTiming f : Act (Attached H d r) Timing) := by
  refine (Does.update _).bind fun _ => Does.get.bind fun s => .onEngine fun link _ _ => ?_
  obtain ⟨timing, configured⟩ := link.cell.value.transmitter.configure_ok s.station.config
  simp only [WP.bind_iff, wp_getTransmitter, configured, WP.lift_ok_iff, wp_setTransmitter,
    WP.pure_iff]
  exact .step (.configure configured) within rfl

theorem Does.takeDmx (within : kinds .read) :
    Does kinds (Attached.takeDmx : Act (Attached H d r) (Option DmxFrame)) := by
  intro s _ _
  rw [WP, Attached.takeDmx_eq]
  cases popped : s.link.dmxStore.pop? with
  | none => exact .refl s.link
  | some taken => exact .step (.takeDmx popped) within rfl

theorem Does.peekDmx : Does kinds (Attached.peekDmx : Act (Attached H d r) _) := by
  intro s _ _
  rw [WP, Attached.peekDmx_eq]
  cases s.link.dmxStore.peek? <;> exact .refl s.link

theorem Does.takeChangedDmx (within : kinds .read) :
    Does kinds (Attached.takeChangedDmx : Act (Attached H d r) (Option DmxFrame)) := by
  apply (Does.takeDmx within).bind
  intro taken
  cases taken with
  | none => exact .pure _
  | some frame =>
      exact Does.get.bind fun _ => .ite (.pure _) ((Does.update _).bind fun _ => .pure _)

theorem Does.takeRdm (within : kinds .read) :
    Does kinds (Attached.takeRdm : Act (Attached H d r) (Option RdmFrame)) := by
  intro s _ _
  rw [WP, Attached.takeRdm_eq]
  cases popped : s.link.rdmStore.pop? with
  | none => exact .refl s.link
  | some taken => exact .step (.takeRdm popped) within rfl

theorem Does.peekRdm : Does kinds (Attached.peekRdm : Act (Attached H d r) _) := by
  intro s _ _
  rw [WP, Attached.peekRdm_eq]
  cases s.link.rdmStore.peek? <;> exact .refl s.link

theorem Does.flush (within : kinds .read) :
    Does kinds (Attached.flush : Act (Attached H d r) Unit) := by
  intro s _ _
  rw [WP, Attached.flush_eq]
  exact .step .flush within rfl

theorem Does.resetCounters : Does kinds (Attached.resetCounters : Act (Attached H d r) Unit) :=
  Does.get.bind fun _ => .update _

variable [Hardware H]

omit [Hardware H] in
theorem Queues.none (s : Link H d r) : Queues [] s s :=
  ⟨.refl s, (List.append_nil _).symm⟩

theorem wp_queueFrame (used : s.link.uses = free) {frame : List UInt8}
    (short : frame.length ≤ dmxCapacity) :
    WP Fault.IsStall (queueFrame frame) (fun _ t => Queues [frame] s.link t.link) s := by
  have queues : Ensures Fault.IsStall (0, true) (fun _ => True)
      (do
        Link.setTransmitter (← (← Link.getTransmitter).queue frame)
        Link.noteNow (.queued frame) : Act (Link H d r) Unit)
      (fun _ s t => Step .queue s t ∧ t.journal.queued = s.journal.queued ++ [frame]) := by
    intro link _ _
    obtain ⟨timing, queued⟩ := link.cell.value.transmitter.queue_ok short
    simp only [WP.bind_iff, wp_getTransmitter, queued, WP.lift_ok_iff, wp_setTransmitter]
    exact ⟨⟨.queue link.line.now queued, rfl⟩, rfl⟩
  apply (wp_onEngine queues used trivial).mono
  rintro _ t ⟨⟨step, queued⟩, used⟩
  exact ⟨.step step rfl used, queued⟩

theorem wp_sendData (used : s.link.uses = free) (frame : List UInt8) :
    WP Fault.IsStall (sendData frame) (fun _ t =>
      Queues (if frame = [] ∨ frame.length > dmxCapacity then [] else [frame]) s.link t.link)
      s := by
  rw [sendData]
  split
  · exact Queues.none s.link
  · rename_i accepted
    exact WP.bind (wp_queueFrame used (by omega)) fun _ _ queues => queues

theorem wp_sendSlots (used : s.link.uses = free) (slots : List UInt8) :
    WP Fault.IsStall (sendSlots slots) (fun _ t =>
      Queues (if slots.length > maxSlots then [] else [dmxStartCode :: slots]) s.link t.link)
      s := by
  rw [sendSlots]
  split
  · exact Queues.none s.link
  · rename_i accepted
    have short : (dmxStartCode :: slots).length ≤ dmxCapacity := by
      simp only [List.length_cons, maxSlots, dmxCapacity] at accepted ⊢
      omega
    exact WP.bind (wp_queueFrame used short) fun _ _ queues => queues

theorem Does.sample (within : kinds .interrupt) :
    Does kinds (Attached.sample : Act (Attached H d r) Counters) :=
  (Does.onLink (Link.Does.foregroundClock within)).bind fun _ =>
    Does.get.bind fun _ => (Does.lift (Sampler.sample_ok _ _ _)).bind fun _ =>
      (Does.update _).bind fun _ => .pure _

/-- A sample is taken of the counters that a reading of the clock leaves. -/
theorem wp_sample {post : Counters → Attached H d r → Prop}
    (h : WP allowed foregroundClock (fun now link => ∀ view,
      s.station.view.sample link.counters now = .ok view →
        post link.counters { station := { s.station with view }, link }) s.link) :
    WP allowed sample post s := by
  rw [sample, WP.bind_iff, wp_onLink]
  apply h.mono
  intro now link ends
  obtain ⟨view, sampled⟩ := s.station.view.sample_ok link.counters now
  simp only [WP.bind_iff, WP.get_iff, sampled, WP.lift_ok_iff]
  exact ends view sampled

theorem Does.statistics (within : kinds .interrupt) :
    Does kinds (Attached.statistics : Act (Attached H d r) Snapshot) :=
  (Does.sample within).bind fun _ => Does.get.bind fun _ => .pure _

theorem Does.updatesPerSecond (within : kinds .interrupt) :
    Does kinds (Attached.updatesPerSecond : Act (Attached H d r) UInt32) :=
  (Does.sample within).bind fun _ => Does.get.bind fun _ => .pure _

end Dmx512.Attached
