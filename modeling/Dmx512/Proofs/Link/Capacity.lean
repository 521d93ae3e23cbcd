import Dmx512.Proofs.Frame.Store
import Dmx512.Proofs.Link.Sound
import Dmx512.Proofs.Reception.Capacity

/-!
# A link stays within its buffers

The cursors of the receiver, the frames of the transmitter and how much of them is sent, and
the frame in every slot of the stores, unread or not, are within the capacity of the buffers
that they stand for. No step of a link leads out of them.
-/

namespace Dmx512

open Standard

namespace Transmitter

/-- Both frames of a transmitter fit their buffer, and so does what is sent. -/
structure Fits (t : Transmitter) : Prop where
  wire : t.wire.length ≤ dmxCapacity
  queued : ∀ frame, t.queued = some frame → frame.length ≤ dmxCapacity
  sent : t.sent ≤ dmxCapacity

variable {t t' : Transmitter} {entries : Journal} {now : Micros} {next : Option Micros}

/-- In the invariant of a transmitter only the count of a frame that is not under way is
missing. -/
theorem WellFormed.fits (wf : t.WellFormed) (sent : t.sent ≤ dmxCapacity) : t.Fits :=
  ⟨wf.wire, wf.queued, sent⟩

theorem Continues.fits (h : t.Continues entries t') (wf : t.WellFormed) : t'.Fits := by
  apply (h.wellFormed wf).fits
  cases h with
  | whole => exact wf.wire
  | part _ short => exact Nat.le_trans (Nat.le_of_lt short) wf.wire

theorem Advances.fits (h : t.Advances now entries t' next) (wf : t.WellFormed)
    (sent : t.sent ≤ dmxCapacity) : t'.Fits := by
  apply (h.wellFormed wf).fits
  cases h with
  | lineBreak _ _ _ begun =>
      obtain ⟨timing, begins⟩ := t.beginFrame_ok now
      cases begins.symm.trans begun
      exact sent
  | whole => exact wf.wire
  | part _ _ short => exact Nat.le_trans (Nat.le_of_lt short) wf.wire
  | rest | mark | overrun => exact sent

end Transmitter

namespace Scene

variable {d r : Nat} {s t : Scene d r}

/-- Everything that a link holds is within the capacity of its buffers. -/
structure Fits (s : Scene d r) : Prop where
  receiver : s.engine.receiver.Fits
  transmitter : s.engine.transmitter.Fits
  dmxStore : s.dmxStore.All (·.length ≤ dmxCapacity)
  rdmStore : s.rdmStore.All (·.data.length ≤ rdmCapacity)

namespace Fits

/-- Receiver, transmitter and stores decide; what else changes does not matter. -/
theorem congr (h : s.Fits) (receiver : t.engine.receiver = s.engine.receiver)
    (transmitter : t.engine.transmitter = s.engine.transmitter)
    (dmxStore : t.dmxStore = s.dmxStore) (rdmStore : t.rdmStore = s.rdmStore) : t.Fits where
  receiver := receiver ▸ h.receiver
  transmitter := transmitter ▸ h.transmitter
  dmxStore := dmxStore ▸ h.dmxStore
  rdmStore := rdmStore ▸ h.rdmStore

theorem withReceiver (h : s.Fits) {receiver : Receiver} (fits : receiver.Fits) :
    (s.withReceiver receiver).Fits :=
  { h with receiver := fits }

theorem withTransmitter (h : s.Fits) {transmitter : Transmitter} (fits : transmitter.Fits) :
    (s.withTransmitter transmitter).Fits :=
  { h with transmitter := fits }

theorem publish (h : s.Fits) (time : Micros) {frame : Option Frame}
    (fits : ∀ completed, frame = some completed → completed.Fits) :
    (s.publish time frame).Fits := by
  rcases frame with - | frame | frame
  · exact h
  · exact { h with dmxStore := h.dmxStore.push (fits _ rfl) }
  · exact { h with rdmStore := h.rdmStore.push (fits _ rfl) }

theorem sync (h : s.Fits) (time : Micros) : (s.sync time).Fits := by
  rw [Scene.sync]
  split
  · exact h
  · exact h.congr rfl rfl rfl rfl

theorem start (h : s.Fits) (first second : Micros) : (s.start first second).Fits := by
  rw [Scene.start]
  split
  · exact { h with receiver := ⟨h.receiver.index, h.receiver.sectionIndex⟩ }
  · exact { h with
      transmitter := ⟨h.transmitter.wire, h.transmitter.queued, h.transmitter.sent⟩ }

theorem halt (h : s.Fits) (first second third : Micros) : (s.halt first second third).Fits := by
  rw [Scene.halt]
  split
  · have reset : ((s.order first (.allowReceive false)).withReceiver
        s.engine.receiver.reset).Fits :=
      { h with receiver := ⟨h.receiver.index, h.receiver.sectionIndex⟩ }
    exact (reset.sync second).congr rfl rfl rfl rfl
  · exact { h with
      transmitter := ⟨h.transmitter.wire, h.transmitter.queued, Nat.zero_le _⟩ }

end Fits

/-- What a receiver is handed leaves it within its buffers, with a frame that fits. -/
theorem Fits.hand (h : s.Fits) {act : Checked (Receiver × Option Frame)} {receiver : Receiver}
    {frame : Option Frame} (yields : Receiver.Yields act) (ended : act = .ok (receiver, frame))
    (time : Micros) : ((s.withReceiver receiver).publish time frame).Fits := by
  obtain ⟨fits, completed⟩ := yields receiver frame ended
  exact (h.withReceiver fits).publish time completed

end Scene

variable {d r : Nat} {kind : Step.Kind} {kinds : Step.Kind → Prop} {s t : Scene d r}

/-- Whatever happens to a link, it stays within its buffers. -/
theorem Step.fits (step : Step kind s t) (sound : s.Sound) (h : s.Fits) : t.Fits := by
  cases step with
  | @hear _ signal time _ _ _ heard =>
      have noted : (s.note time (.heard signal)).Fits := h.congr rfl rfl rfl rfl
      exact noted.hand (h.receiver.hear sound.receiver signal) heard time
  | @timeOut _ time _ _ later served =>
      have noted : (s.note time .receiveAlarm).Fits := h.congr rfl rfl rfl rfl
      exact (noted.hand h.receiver.onTimeout served time).congr rfl rfl rfl rfl
  | sync time => exact h.sync time
  | resume continues =>
      exact (h.withTransmitter (continues.fits sound.transmitter)).congr rfl rfl rfl rfl
  | pace later _ advances =>
      exact (h.withTransmitter (advances.fits sound.transmitter h.transmitter.sent)).congr
        rfl rfl rfl rfl
  | @queue _ frame _ time queued =>
      obtain ⟨short, timing, rfl⟩ := Transmitter.eq_of_queue queued
      refine { h with transmitter := ⟨h.transmitter.wire, ?_, h.transmitter.sent⟩ }
      exact fun _ same => Option.some_inj.mp same ▸ short
  | configure configured =>
      obtain ⟨timing, configures⟩ := s.engine.transmitter.configure_ok _
      cases configures.symm.trans configured
      exact h.withTransmitter ⟨h.transmitter.wire, h.transmitter.queued, h.transmitter.sent⟩
  | takeDmx popped => exact { h with dmxStore := (h.dmxStore.pop? popped).2 }
  | takeRdm popped => exact { h with rdmStore := (h.rdmStore.pop? popped).2 }
  | requestStop =>
      exact h.withTransmitter ⟨h.transmitter.wire, h.transmitter.queued, h.transmitter.sent⟩
  | start first second => exact h.start first second
  | halt first second third => exact h.halt first second third
  | flush => exact { h with dmxStore := h.dmxStore, rdmStore := h.rdmStore }
  | readClock | sample | paceIdle | claim | release | refuse | turn | setBreak | write =>
      exact h.congr rfl rfl rfl rfl

theorem Steps.fits (steps : Steps kinds s t) (sound : s.Sound) (h : s.Fits) : t.Fits := by
  induction steps with
  | refl => exact h
  | tail before step ih =>
      obtain ⟨_, _, step⟩ := step
      exact step.fits (Steps.sound before sound) ih

end Dmx512
