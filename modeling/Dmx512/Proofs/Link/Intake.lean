import Dmx512.Proofs.Link.Arrivals
import Dmx512.Proofs.Link.Hearing

/-!
# What a link takes in

An interrupt takes signals from the receive queue. What it makes of them is told by `Intake`
alone: by whether the link receives, its receiver and stores, and the readings that the clock
has still to show. `Intake.hearAll` takes signals in one after the other, so that signals in
two bursts are taken in as in one. The rest of the interrupt, which goes on with a frame that is
sent and sets the receive alarm, does not touch what was taken in.
-/

namespace Dmx512

open Act Standard

/-- A view of hardware as a receive queue and a clock that only its readings move. -/
structure Clockwork (H : Type) [Hardware H] extends ReceiveQueue H where
  /-- What the readings of the clock will show, from the next one on. -/
  readings : H → Nat → Micros
  shown (h : H) : Hardware.clock h = readings h 0
  passed (h : H) : readings (Hardware.tick h) = fun n => readings h (n + 1)
  kept_sample (h : H) : readings (Hardware.sample h).2 = readings h
  kept_take (h : H) : readings (Hardware.take h).2 = readings h
  kept_obey (h : H) (order : Order) : readings (Hardware.obey order h) = readings h

/-- The readings that are left after a signal: one is spent on it, but none on a damaged byte. -/
def Signal.spend (readings : Nat → Micros) : Signal → Nat → Micros
  | .damaged => readings
  | .lineBreak | .byte _ => fun n => readings (n + 1)

/-- What signals are taken in by, and what they leave. -/
structure Intake (d r : Nat) where
  /-- Whether signals are handed to the receiver. -/
  receiving : Bool
  receiver : Receiver
  /-- What the receiver responded to, and what it published then. -/
  occasions : List Occasion
  dmxStore : Frame.Store DmxFrame d
  rdmStore : Frame.Store RdmFrame r
  /-- Transmit alarms that found the frame before unfinished. -/
  overruns : UInt32
  /-- What the readings of the clock will show. -/
  readings : Nat → Micros

namespace Intake

variable {d r : Nat}

/-- Take in a signal: the receiver hears it at the next reading. Without a receiver that runs it
is dropped. -/
def hear (i : Intake d r) (signal : Signal) : Checked (Intake d r) :=
  if i.receiving then do
    let (receiver, frame) ← i.receiver.hear signal (i.readings 0)
    pure { i with
      receiver
      occasions := i.occasions ++ [⟨.signal signal, i.readings 0, frame.toList⟩]
      dmxStore := i.dmxStore.pushAll (frame.toList.filterMap Frame.dmx?)
      rdmStore := i.rdmStore.pushAll (frame.toList.filterMap Frame.rdm?)
      readings := signal.spend i.readings }
  else
    pure i

def hearAll (i : Intake d r) (signals : List Signal) : Checked (Intake d r) :=
  signals.foldlM hear i

/-- Signals taken in by two bursts are taken in as by one. -/
theorem hearAll_append {i m : Intake d r} {first : List Signal} (heard : i.hearAll first = .ok m)
    (second : List Signal) : i.hearAll (first ++ second) = m.hearAll second := by
  rw [hearAll, List.foldlM_append]
  change i.hearAll first >>= _ = _
  rw [heard]
  rfl

end Intake

variable {H : Type} [Hardware H] {d r : Nat} {clockwork : Clockwork H}

namespace Link

variable {α β : Type} {allowed : Fault → Prop} {s : Link H d r} {i : Intake d r}
variable {signals : List Signal}

def intake (clockwork : Clockwork H) (s : Link H d r) : Intake d r where
  receiving := s.cell.value.receiving
  receiver := s.cell.value.receiver
  occasions := s.line.journal.occasions
  dmxStore := s.dmxStore
  rdmStore := s.rdmStore
  overruns := s.cell.value.transmitter.overruns
  readings := clockwork.readings s.line.hardware

/-- A link has taken in what `i` tells, and `signals` are pending. -/
structure TookIn (clockwork : Clockwork H) (i : Intake d r) (signals : List Signal)
    (s : Link H d r) : Prop where
  intake : s.intake clockwork = i
  pending : clockwork.pending s.line.hardware = signals

namespace TookIn

/-- A look at the line status takes nothing in. -/
theorem sampled (h : s.TookIn clockwork i signals) (time : Micros) :
    TookIn clockwork i signals { s with line := {
      hardware := (Hardware.sample s.line.hardware).2
      journal := ⟨time, .sampled (Hardware.sample s.line.hardware).1⟩ :: s.line.journal } } where
  intake := by
    rw [← h.intake, Link.intake, Link.intake, clockwork.kept_sample]
    rfl
  pending := (clockwork.sampled _).trans h.pending

/-- An order that leaves the queue alone takes nothing in. -/
theorem ordered (h : s.TookIn clockwork i signals) {order : Order} (other : order ≠ .clearReceive)
    (time : Micros) :
    TookIn clockwork i signals { s with line := {
      hardware := Hardware.obey order s.line.hardware
      journal := ⟨time, .order order⟩ :: s.line.journal } } where
  intake := by
    have occasions : Journal.occasions (⟨time, .order order⟩ :: s.line.journal) =
        s.line.journal.occasions :=
      Journal.occasions_cons (by cases order <;> simp [Event.topic])
    rw [← h.intake, Link.intake, Link.intake, clockwork.kept_obey, occasions]
  pending := (clockwork.obeyed _ other).trans h.pending

/-- Writing a part of the frame takes nothing in. -/
theorem writeReady (h : s.TookIn clockwork i signals) (bytes : List UInt8) :
    WP allowed (Line.writeReady bytes)
      (fun _ line => TookIn clockwork i signals { s with line }) s.line := by
  induction bytes generalizing s with
  | nil => exact h
  | cons byte rest ih =>
      rw [Line.writeReady, WP.bind_iff]
      change WP _ (if (Hardware.sample s.line.hardware).1.txReady then _ else _) _ _
      rw [WP.ite_iff]
      have looked := h.sampled (Hardware.clock (Hardware.sample s.line.hardware).2)
      refine ⟨fun _ => ?_, fun _ => looked⟩
      have written := looked.ordered (show Order.write byte ≠ .clearReceive by simp)
        (Hardware.clock (Hardware.sample s.line.hardware).2)
      exact WP.bind_iff.mpr (WP.bind_iff.mpr (ih written))

theorem setTransmitter (h : s.TookIn clockwork i signals) {transmitter : Transmitter}
    (overruns : transmitter.overruns = s.cell.value.transmitter.overruns) :
    TookIn clockwork i signals { s with cell := { s.cell with
      value := { s.cell.value with transmitter } } } where
  intake := by
    rw [← h.intake, Link.intake, Link.intake, overruns]
    rfl
  pending := h.pending

/-- Going on with a frame that is sent takes nothing in. -/
theorem continueFrame (h : s.TookIn clockwork i signals) :
    WP allowed Link.continueFrame (fun _ t => t.TookIn clockwork i signals) s := by
  rw [Link.continueFrame, WP.bind_iff, wp_getTransmitter, WP.ite_iff]
  refine ⟨fun _ => ?_, fun _ => h⟩
  have fills : WP allowed Link.fill (fun _ t => t.TookIn clockwork i signals) s := by
    rw [Link.fill, WP.bind_iff, wp_getTransmitter, WP.bind_iff, wp_onLine]
    apply (h.writeReady _).mono
    intro _ line taken
    exact taken.setTransmitter rfl
  apply WP.bind fills
  intro all t taken
  rw [WP.ite_iff]
  refine ⟨fun _ => ?_, fun _ => taken⟩
  have masked := taken.ordered (show Order.allowTransmit false ≠ .clearReceive by simp) t.line.now
  exact WP.bind_iff.mpr (masked.setTransmitter rfl)

/-- Setting the receive alarm takes nothing in. -/
theorem syncWatchdog (h : s.TookIn clockwork i signals) :
    WP allowed Link.syncWatchdog (fun _ t => t.TookIn clockwork i signals) s := by
  rw [Link.syncWatchdog, WP.bind_iff, wp_getEngine, WP.ite_iff]
  refine ⟨fun _ => h, fun _ => ?_⟩
  rw [setWatchdog_eq, WP.bind_iff, wp_order]
  have other : alarmOrder .receiveTimeout s.cell.value.receiver.deadline ≠ .clearReceive := by
    cases s.cell.value.receiver.deadline <;> simp [alarmOrder]
  have armed := h.ordered other s.line.now
  exact ⟨armed.intake, armed.pending⟩

/-- The time of a signal is the next reading, spent or not. -/
theorem signalTime (h : s.TookIn clockwork i signals) (signal : Signal) :
    WP allowed (Link.signalTime signal) (fun time t => time = i.readings 0 ∧
      t.TookIn clockwork { i with readings := signal.spend i.readings } signals) s := by
  have time : s.line.now = i.readings 0 := by
    rw [← h.intake]
    exact clockwork.shown _
  cases signal with
  | damaged => exact ⟨time, h⟩
  | lineBreak | byte =>
      refine ⟨time, ?_, (clockwork.ticked _).trans h.pending⟩
      rw [← h.intake, Link.intake, Link.intake, clockwork.passed]
      rfl

/-- A signal is noted, and the receiver that heard it put in place. -/
theorem respond (h : s.TookIn clockwork i signals) (receiver : Receiver) (time : Micros)
    (signal : Signal) :
    TookIn clockwork { i with
        receiver, occasions := i.occasions ++ [⟨.signal signal, time, []⟩] } signals
      { s with
        line := { s.line with journal := ⟨time, .heard signal⟩ :: s.line.journal }
        cell := { s.cell with value := { s.cell.value with receiver } } } := by
  obtain ⟨rfl, pending⟩ := h
  exact ⟨rfl, pending⟩

/-- What a receiver has heard and published is taken in. -/
theorem publish (h : s.TookIn clockwork i signals) {story : List Occasion} {o : Occasion}
    (latest : i.occasions = story ++ [o]) (time : Micros) (frame : Option Frame) :
    WP allowed (Link.publish time frame) (fun _ t => t.TookIn clockwork { i with
      occasions := story ++ [{ o with published := o.published ++ frame.toList }]
      dmxStore := i.dmxStore.pushAll (frame.toList.filterMap Frame.dmx?)
      rdmStore := i.rdmStore.pushAll (frame.toList.filterMap Frame.rdm?) } signals) s := by
  obtain ⟨rfl, pending⟩ := h
  rcases frame with - | frame | frame
  case none =>
    refine ⟨?_, pending⟩
    have same : s.line.journal.occasions =
        story ++ [{ o with published := o.published ++ [] }] := by
      rw [List.append_nil]
      exact latest
    exact congrArg (fun occasions => { s.intake clockwork with occasions }) same
  case some.dmx =>
    have shown : Journal.occasions (⟨time, .published (.dmx frame)⟩ :: s.line.journal) =
        story ++ [o.publish (.dmx frame)] := Journal.occasions_published (.dmx frame) latest
    exact ⟨congrArg (fun occasions => { s.intake clockwork with
      occasions, dmxStore := s.dmxStore.push frame }) shown, pending⟩
  case some.rdm =>
    have shown : Journal.occasions (⟨time, .published (.rdm frame)⟩ :: s.line.journal) =
        story ++ [o.publish (.rdm frame)] := Journal.occasions_published (.rdm frame) latest
    exact ⟨congrArg (fun occasions => { s.intake clockwork with
      occasions, rdmStore := s.rdmStore.push frame }) shown, pending⟩

/-- A signal is taken in as `Intake.hear` says. -/
theorem hear (h : s.TookIn clockwork i signals) (signal : Signal) :
    WP (fun _ => True) (Link.hear signal) (fun _ t => ∃ i', i.hear signal = .ok i' ∧
      t.TookIn clockwork i' signals) s := by
  have receiving : s.cell.value.receiving = i.receiving := by rw [← h.intake]; rfl
  have receiver : s.cell.value.receiver = i.receiver := by rw [← h.intake]; rfl
  rw [Link.hear, WP.bind_iff, wp_getEngine, WP.ite_iff, receiving]
  refine ⟨fun runs => ?_, fun stopped => ⟨i, if_neg stopped, h⟩⟩
  apply WP.bind (h.signalTime signal)
  rintro time t ⟨rfl, spent⟩
  rw [WP.bind_iff, wp_note, WP.bind_iff, receiver]
  cases heard : i.receiver.hear signal (i.readings 0) with
  | error => trivial
  | ok served =>
      obtain ⟨receiver, frame⟩ := served
      have told := spent.respond receiver (i.readings 0) signal
      rw [WP.lift_ok_iff, WP.bind_iff, wp_setReceiver]
      apply (told.publish rfl (i.readings 0) frame).mono
      intro _ u taken
      refine ⟨_, ?_, taken⟩
      rw [Intake.hear, if_pos runs, heard]
      rfl

/-- The loop that serves the receive queue takes its first signals in, as many as it serves. -/
theorem drainReceive (h : s.TookIn clockwork i signals) (limit : Nat) :
    WP (fun _ => True) (Link.drainReceive limit) (fun _ t =>
      ∃ i', i.hearAll (signals.take limit) = .ok i' ∧
        t.TookIn clockwork i' (signals.drop limit)) s := by
  have start : ∃ i', i.hearAll [] = .ok i' ∧ s.TookIn clockwork i' signals := ⟨i, rfl, h⟩
  refine wp_drainReceive clockwork.toReceiveQueue (fun heard pending t =>
    ∃ i', i.hearAll heard = .ok i' ∧ t.TookIn clockwork i' pending)
    ?pends ?sampled ?taken ?hears start limit
  case pends => exact fun _ _ _ ⟨_, _, taken⟩ => taken.pending
  case sampled => exact fun _ _ _ ⟨i', heard, taken⟩ => ⟨i', heard, taken.sampled _⟩
  case taken =>
    rintro heard signal rest t ⟨i', told, taken⟩
    refine ⟨i', told, ?_, clockwork.taken _ taken.pending⟩
    rw [← taken.intake, Link.intake, Link.intake, clockwork.kept_take]
  case hears =>
    rintro heard pending signal t ⟨i', told, taken⟩
    apply (taken.hear signal).mono
    rintro _ u ⟨i'', next, taken'⟩
    refine ⟨i'', ?_, taken'⟩
    rw [Intake.hearAll_append told]
    exact bind_pure (i'.hear signal) |>.trans next

/-- An interrupt takes in the first signals of the queue, as many as it serves. -/
theorem serve (h : s.TookIn clockwork i signals) (used : s.uses = free) :
    WP (fun _ => True) (Link.serve .uart) (fun _ t =>
      ∃ i', i.hearAll (signals.take serviceLimit) = .ok i' ∧
        t.TookIn clockwork i' (signals.drop serviceLimit)) s := by
  rw [Link.serve, wp_critical used]
  have entered : TookIn clockwork i signals { s with cell := { s.cell with exclusive := true } } :=
    ⟨h.intake, h.pending⟩
  apply WP.bind (entered.drainReceive serviceLimit)
  rintro _ t ⟨i', heard, taken⟩
  apply WP.bind taken.continueFrame
  intro _ u continued
  apply continued.syncWatchdog.mono
  intro _ v synced
  exact ⟨i', heard, synced.intake, synced.pending⟩

end TookIn

end Link

end Dmx512
