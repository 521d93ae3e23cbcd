import Dmx512.Link.Interrupt
import Dmx512.Proofs.Link.Reception
import Dmx512.Proofs.Link.Transmission

/-!
# What arrives is heard

Where the hardware holds what it receives in a queue, an interrupt of a receiving
link hears the first entries of the queue, each once and in order, and leaves the
others. Timeouts and transmit alarms leave the queue alone.

These are statements of partial correctness: that the interrupts end is known from
their contracts.
-/

namespace Dmx512

open Act Standard

/-- What a line status and the byte behind it say of the line, if they say anything. -/
def Line.Status.signal? (status : Line.Status) (byte : UInt8) : Option Signal :=
  if status.breakDetected then some .lineBreak
  else if status.dataReady then some (if status.hasReceiveError then .damaged else .byte byte)
  else none

theorem Line.Status.signal?_eq_none {status : Line.Status} {byte : UInt8} :
    status.signal? byte = none ↔ status.breakDetected = false ∧ status.dataReady = false := by
  rw [signal?]
  cases status.breakDetected <;> cases status.dataReady <;> simp

/-- A view of hardware as the queue of what it has received. -/
structure ReceiveQueue (H : Type) [Hardware H] where
  /-- What was received and not taken yet, oldest first. -/
  pending : H → List Signal
  sampled (h : H) : pending (Hardware.sample h).2 = pending h
  /-- The line status and the byte that it is about tell of the first entry. -/
  first (h : H) :
    (Hardware.sample h).1.signal? (Hardware.take (Hardware.sample h).2).1 = (pending h).head?
  taken (h : H) {signal : Signal} {rest : List Signal} :
    pending h = signal :: rest → pending (Hardware.take h).2 = rest
  ticked (h : H) : pending (Hardware.tick h) = pending h
  obeyed (h : H) {order : Order} :
    order ≠ .clearReceive → pending (Hardware.obey order h) = pending h

variable {H : Type} [Hardware H] {d r : Nat} {queue : ReceiveQueue H}

namespace Journal

def causes (journal : Journal) : List Cause := journal.occasions.map Occasion.cause

variable {entry : Entry} {earlier : Journal}

theorem causes_cons (other : entry.event.topic ≠ .reception) :
    causes (entry :: earlier) = causes earlier := by
  rw [causes, occasions_cons other, causes]

theorem causes_heard (time : Micros) (signal : Signal) :
    causes (⟨time, .heard signal⟩ :: earlier) = causes earlier ++ [.signal signal] := by
  rw [causes, occasions, List.map_append, causes]
  rfl

theorem causes_receiveAlarm (time : Micros) :
    causes (⟨time, .receiveAlarm⟩ :: earlier) = causes earlier ++ [.timeout] := by
  rw [causes, occasions, List.map_append, causes]
  rfl

theorem causes_published (time : Micros) (frame : Frame) :
    causes (⟨time, .published frame⟩ :: earlier) = causes earlier := by
  rw [causes, occasions, causes]
  rcases List.eq_nil_or_concat (occasions earlier) with none | ⟨story, o, some⟩
  · rw [none]
    rfl
  · rw [some, List.concat_eq_append, List.modifyLast_concat, List.map_append, List.map_append]
    rfl

end Journal

namespace Line

/-- A line where a link has heard `causes` and `signals` are pending. -/
def Awaits (queue : ReceiveQueue H) (causes : List Cause) (signals : List Signal)
    (line : Line H) : Prop :=
  line.journal.causes = causes ∧ queue.pending line.hardware = signals

variable {line : Line H} {causes : List Cause} {signals : List Signal}

theorem Awaits.order (h : line.Awaits queue causes signals) {order : Order}
    (other : order ≠ .clearReceive) (time : Micros) :
    Awaits queue causes signals
      { hardware := Hardware.obey order line.hardware
        journal := ⟨time, .order order⟩ :: line.journal } :=
  ⟨(Journal.causes_cons (by cases order <;> simp [Event.topic])).trans h.1,
    (queue.obeyed _ other).trans h.2⟩

theorem Awaits.sample (h : line.Awaits queue causes signals) (time : Micros) :
    Awaits queue causes signals
      { hardware := (Hardware.sample line.hardware).2
        journal := ⟨time, .sampled (Hardware.sample line.hardware).1⟩ :: line.journal } :=
  ⟨(Journal.causes_cons (by simp [Event.topic])).trans h.1, (queue.sampled _).trans h.2⟩

theorem Awaits.readClock (h : line.Awaits queue causes signals) (time : Micros) :
    Awaits queue causes signals
      { hardware := Hardware.tick line.hardware
        journal := ⟨time, .clockRead⟩ :: line.journal } :=
  ⟨(Journal.causes_cons (by simp [Event.topic])).trans h.1, (queue.ticked _).trans h.2⟩

theorem Awaits.writeReady (h : line.Awaits queue causes signals) (bytes : List UInt8) :
    WP (fun _ => True) (writeReady bytes) (fun _ t => t.Awaits queue causes signals) line := by
  induction bytes generalizing line with
  | nil => exact h
  | cons byte rest ih =>
      rw [Line.writeReady, WP.bind_iff]
      change WP _ (if (Hardware.sample line.hardware).1.txReady then _ else _) _ _
      rw [WP.ite_iff]
      refine ⟨fun _ => ?_, fun _ => h.sample _⟩
      have written := (h.sample (Hardware.clock (Hardware.sample line.hardware).2)).order
        (show Order.write byte ≠ .clearReceive by simp)
        (Hardware.clock (Hardware.sample line.hardware).2)
      exact WP.bind_iff.mpr (WP.bind_iff.mpr ((ih written).mono fun _ _ awaits => awaits))

end Line

namespace Link

variable {α β : Type} {s : Link H d r} {causes : List Cause} {signals : List Signal}

/-- A receiving link that has heard `causes`, where `signals` are pending. -/
structure Awaits (queue : ReceiveQueue H) (causes : List Cause) (signals : List Signal)
    (s : Link H d r) : Prop where
  line : s.line.Awaits queue causes signals
  receiving : s.engine.receiving = true

/-- An act hears nothing and takes nothing from the queue. -/
def Unheard (queue : ReceiveQueue H) (act : Act (Link H d r) α) : Prop :=
  ∀ ⦃causes signals s⦄, s.Awaits queue causes signals →
    WP (fun _ => True) act (fun _ t => t.Awaits queue causes signals) s

namespace Unheard

theorem pure (a : α) : Unheard queue (Pure.pure a : Act (Link H d r) α) := fun _ _ _ h => h

theorem bind {act : Act (Link H d r) α} {next : α → Act (Link H d r) β}
    (first : Unheard queue act) (second : ∀ a, Unheard queue (next a)) :
    Unheard queue (act >>= next) :=
  fun _ _ _ h => WP.bind (first h) fun a _ h' => second a h'

theorem ite {c : Prop} [Decidable c] {yes no : Act (Link H d r) α} (first : Unheard queue yes)
    (second : Unheard queue no) : Unheard queue (if c then yes else no) := by
  split
  · exact first
  · exact second

theorem lift (c : Checked α) : Unheard queue (liftM c : Act (Link H d r) α) := by
  intro _ _ s h
  cases c with
  | error => trivial
  | ok => exact h

theorem order {order : Order} (other : order ≠ .clearReceive) :
    Unheard queue (Link.order order : Act (Link H d r) Unit) :=
  fun _ _ _ h => ⟨h.line.order other _, h.receiving⟩

theorem readClock : Unheard queue (Link.readClock : Act (Link H d r) Micros) :=
  fun _ _ _ h => ⟨h.line.readClock _, h.receiving⟩

theorem getEngine : Unheard queue (Link.getEngine : Act (Link H d r) Engine) := fun _ _ _ h => h

theorem getTransmitter : Unheard queue (Link.getTransmitter : Act (Link H d r) Transmitter) :=
  fun _ _ _ h => h

theorem modifyEngine {f : Engine → Engine} (kept : ∀ e, (f e).receiving = e.receiving) :
    Unheard queue (Link.modifyEngine f : Act (Link H d r) Unit) :=
  fun _ _ s h => ⟨h.line, (kept s.engine).trans h.receiving⟩

theorem setReceiver (receiver : Receiver) :
    Unheard queue (Link.setReceiver receiver : Act (Link H d r) Unit) :=
  modifyEngine fun _ => rfl

theorem fill : Unheard queue (Link.fill : Act (Link H d r) Bool) := by
  refine getTransmitter.bind fun t => bind ?_ fun count =>
    bind (modifyEngine fun _ => rfl) fun _ => pure _
  intro _ _ _ h
  exact wp_onLine.mpr ((h.line.writeReady _).mono fun _ _ awaits => ⟨awaits, h.receiving⟩)

theorem continueFrame : Unheard queue (Link.continueFrame : Act (Link H d r) Unit) := by
  refine getTransmitter.bind fun t => ite (fill.bind fun all => ite ?_ (pure ())) (pure ())
  have masks : Unheard queue (Link.order (.allowTransmit false) : Act (Link H d r) Unit) :=
    order (by simp)
  exact masks.bind fun _ => modifyEngine fun _ => rfl

theorem syncWatchdog : Unheard queue (Link.syncWatchdog : Act (Link H d r) Unit) := by
  refine getEngine.bind fun e => ite (pure ()) (bind ?_ fun _ => modifyEngine fun _ => rfl)
  rw [setWatchdog_eq]
  exact order (by cases e.receiver.deadline <;> simp [alarmOrder])

/-- A frame published belongs to what was heard before it. -/
theorem publish (time : Micros) (frame : Option Frame) :
    Unheard queue (Link.publish time frame : Act (Link H d r) Unit) := by
  intro causes signals s h
  rcases frame with - | frame | frame
  · exact h
  · exact ⟨⟨(Journal.causes_published time _).trans h.line.1, h.line.2⟩, h.receiving⟩
  · exact ⟨⟨(Journal.causes_published time _).trans h.line.1, h.line.2⟩, h.receiving⟩

end Unheard

/-- A receiving link hears what it is handed. -/
theorem Awaits.hear (h : s.Awaits queue causes signals) (signal : Signal) :
    WP (fun _ => True) (Link.hear signal)
      (fun _ t => t.Awaits queue (causes ++ [.signal signal]) signals) s := by
  rw [Link.hear, WP.bind_iff, wp_getEngine, WP.ite_iff]
  refine ⟨fun _ => ?_, fun deaf => absurd h.receiving deaf⟩
  have reads : Unheard queue (signalTime signal : Act (Link H d r) Micros) := by
    cases signal with
    | damaged => exact fun _ _ _ h => h
    | lineBreak | byte => exact .readClock
  apply WP.bind (reads h)
  intro time t awaits
  rw [WP.bind_iff, wp_note]
  have heard : Awaits queue (causes ++ [.signal signal]) signals
      { t with line := { t.line with journal := ⟨time, .heard signal⟩ :: t.line.journal } } :=
    ⟨⟨by rw [Journal.causes_heard, awaits.line.1], awaits.line.2⟩, awaits.receiving⟩
  have rest : Unheard queue (do
      let served ← s.cell.value.receiver.hear signal time
      setReceiver served.1
      Link.publish time served.2 : Act (Link H d r) Unit) :=
    (Unheard.lift _).bind fun _ => (Unheard.setReceiver _).bind fun _ => .publish _ _
  exact rest heard

section Drain

variable {allowed : Fault → Prop} (queue) (holds : List Signal → List Signal → Link H d r → Prop)
  (pends : ∀ heard signals s, holds heard signals s → queue.pending s.line.hardware = signals)
  (sampled : ∀ heard signals s, holds heard signals s → holds heard signals { s with line := {
    hardware := (Hardware.sample s.line.hardware).2
    journal := ⟨Hardware.clock (Hardware.sample s.line.hardware).2,
      .sampled (Hardware.sample s.line.hardware).1⟩ :: s.line.journal } })
  (taken : ∀ heard signal rest s, holds heard (signal :: rest) s →
    holds heard rest { s with line :=
      { s.line with hardware := (Hardware.take s.line.hardware).2 } })
  (hears : ∀ heard signals signal s, holds heard signals s →
    WP allowed (hear signal) (fun _ t => holds (heard ++ [signal]) signals t) s)
include pends sampled taken hears

/-- The rule of the loop that serves the receive queue, for what holds of the signals handed on
and of those still pending: as many of them are handed on as the loop may serve. -/
theorem wp_drainReceive {heard : List Signal} (start : holds heard signals s) (limit : Nat) :
    WP allowed (Link.drainReceive limit)
      (fun _ t => holds (heard ++ signals.take limit) (signals.drop limit) t) s := by
  induction limit generalizing s heard signals with
  | zero => simpa [Link.drainReceive] using start
  | succ limit ih =>
      have first := queue.first s.line.hardware
      rw [pends heard signals s start] at first
      have looked := sampled heard signals s start
      rw [Link.drainReceive, WP.bind_iff, wp_onLine]
      change WP _ (if (Hardware.sample s.line.hardware).1.breakDetected then _ else
        if (Hardware.sample s.line.hardware).1.dataReady then _ else _) _ _
      rw [WP.ite_iff, WP.ite_iff]
      cases signals with
      | nil =>
          obtain ⟨unbroken, idle⟩ := Line.Status.signal?_eq_none.mp first
          refine ⟨fun broken => ?_, fun _ => ⟨fun ready => ?_, fun _ => ?_⟩⟩
          · exact absurd (unbroken.symm.trans broken) (by simp)
          · exact absurd (idle.symm.trans ready) (by simp)
          · rw [List.take_nil, List.append_nil, List.drop_nil]
            exact looked
      | cons signal rest =>
          rw [List.head?_cons, Line.Status.signal?] at first
          have goesOn (t : Link H d r) (handed : holds (heard ++ [signal]) rest t) :
              WP allowed (Link.drainReceive limit) (fun _ u =>
                holds (heard ++ (signal :: rest).take (limit + 1))
                  ((signal :: rest).drop (limit + 1)) u) t := by
            have more := ih handed
            rwa [List.append_assoc] at more
          have handed := hears heard rest signal _ (taken heard signal rest _ looked)
          refine ⟨fun broken => ?_, fun whole => ⟨fun ready => ?_, fun idle => ?_⟩⟩
          · rw [if_pos broken, Option.some_inj] at first
            subst first
            rw [WP.bind_iff, wp_onLine]
            exact WP.bind handed fun _ t => goesOn t
          · rw [if_neg whole, if_pos ready, Option.some_inj] at first
            rw [WP.bind_iff, wp_onLine]
            change WP _ (Link.hear (if (Hardware.sample s.line.hardware).1.hasReceiveError then
              .damaged else .byte (Hardware.take (Hardware.sample s.line.hardware).2).1) >>=
                fun _ => _) _ _
            rw [first]
            exact WP.bind handed fun _ t => goesOn t
          · rw [if_neg whole, if_neg idle] at first
            cases first

end Drain

/-- An interrupt hears the first entries of the queue, as many as it serves. -/
theorem Awaits.drainReceive (h : s.Awaits queue causes signals) (limit : Nat) :
    WP (fun _ => True) (Link.drainReceive limit)
      (fun _ t => t.Awaits queue (causes ++ (signals.take limit).map .signal)
        (signals.drop limit)) s := by
  have start : s.Awaits queue (causes ++ ([] : List Signal).map .signal) signals := by
    rw [List.map_nil, List.append_nil]
    exact h
  refine wp_drainReceive queue
    (fun heard pending t => t.Awaits queue (causes ++ heard.map .signal) pending)
    ?pends ?sampled ?taken ?hears start limit
  case pends => exact fun _ _ _ awaits => awaits.line.2
  case sampled => exact fun _ _ _ awaits => ⟨awaits.line.sample _, awaits.receiving⟩
  case taken =>
    exact fun _ _ _ _ awaits =>
      ⟨⟨awaits.line.1, queue.taken _ awaits.line.2⟩, awaits.receiving⟩
  case hears =>
    intro heard pending signal t awaits
    rw [List.map_append, ← List.append_assoc]
    exact awaits.hear signal

/-- What an interrupt makes a receiving link hear, where `signals` are pending. -/
def heardBy (signals : List Signal) : Interrupt → List Cause
  | .uart => (signals.take serviceLimit).map .signal
  | .transmitTimer => []
  | .receiveTimeout => [.timeout]

def leftBy (signals : List Signal) : Interrupt → List Signal
  | .uart => signals.drop serviceLimit
  | .transmitTimer | .receiveTimeout => signals

theorem Awaits.critical {act : Act (Link H d r) α} {causes' : List Cause} {signals' : List Signal}
    (h : s.Awaits queue causes signals)
    (body : ∀ m : Link H d r, m.Awaits queue causes signals →
      WP (fun _ => True) act (fun _ t => t.Awaits queue causes' signals') m) :
    WP (fun _ => True) (Link.critical act) (fun _ t => t.Awaits queue causes' signals') s := by
  simp only [Link.critical, WP.bind_iff, WP.get_iff, Cell.enter]
  split
  · simp only [WP.lift_ok_iff, WP.modify_iff, WP.pure_iff]
    let entered : Link H d r := { s with cell := { s.cell with exclusive := true } }
    have awaits : entered.Awaits queue causes signals := ⟨h.line, h.receiving⟩
    exact (body entered awaits).mono fun _ _ awaits' => ⟨awaits'.line, awaits'.receiving⟩
  · trivial

theorem Awaits.timeOut (h : s.Awaits queue causes signals) :
    WP (fun _ => True) Link.timeOut
      (fun _ t => t.Awaits queue (causes ++ [.timeout]) signals) s := by
  rw [Link.timeOut, WP.bind_iff]
  apply (Unheard.readClock h).mono
  intro time t awaits
  rw [WP.bind_iff, wp_note]
  have heard : Awaits queue (causes ++ [.timeout]) signals
      { t with line := { t.line with journal := ⟨time, .receiveAlarm⟩ :: t.line.journal } } :=
    ⟨⟨by rw [Journal.causes_receiveAlarm, awaits.line.1], awaits.line.2⟩, awaits.receiving⟩
  have disarms : Unheard queue
      (Link.order (.cancelAlarm .receiveTimeout) : Act (Link H d r) Unit) := .order (by simp)
  have disarmed : Unheard queue
      (Link.modifyEngine fun e => { e with watchdog := none } : Act (Link H d r) Unit) :=
    .modifyEngine fun _ => rfl
  have rest : Unheard queue (do
      let served ← (← Link.getEngine).receiver.onTimeout time
      Link.setReceiver served.1
      Link.publish time served.2
      Link.order (.cancelAlarm .receiveTimeout)
      Link.modifyEngine fun e => { e with watchdog := none }
      Link.syncWatchdog : Act (Link H d r) Unit) :=
    Unheard.getEngine.bind fun _ => (Unheard.lift _).bind fun _ =>
      (Unheard.setReceiver _).bind fun _ => (Unheard.publish _ _).bind fun _ =>
        disarms.bind fun _ => disarmed.bind fun _ => .syncWatchdog
  exact rest heard

/-- A receiving link does not send, so a transmit alarm is only disarmed. -/
theorem Awaits.pace (h : s.Awaits queue causes signals) :
    WP (fun _ => True) Link.pace (fun _ t => t.Awaits queue causes signals) s := by
  have receiving := h.receiving
  have disarms : Unheard queue (setPace none : Act (Link H d r) Unit) := by
    rw [setPace_eq]
    exact .order (by simp [alarmOrder])
  rw [Link.pace, WP.bind_iff, wp_getEngine, WP.ite_iff]
  refine ⟨fun sending => ?_, fun _ => disarms h⟩
  simp only [engine, Engine.receiving, Engine.sending, Bool.and_eq_true, beq_iff_eq]
    at receiving sending
  rw [receiving.2] at sending
  cases sending.2

/-- What an interrupt hears, and what it leaves to be heard. -/
theorem Awaits.serve (h : s.Awaits queue causes signals) (interrupt : Interrupt) :
    WP (fun _ => True) (Link.serve interrupt)
      (fun _ t => t.Awaits queue (causes ++ heardBy signals interrupt) (leftBy signals interrupt))
      s := by
  cases interrupt with
  | uart =>
      apply h.critical
      intro m awaits
      apply WP.bind (awaits.drainReceive serviceLimit)
      intro _ t drained
      have rest : Unheard queue (do
          Link.continueFrame
          Link.syncWatchdog : Act (Link H d r) Unit) :=
        Unheard.continueFrame.bind fun _ => .syncWatchdog
      exact rest drained
  | transmitTimer =>
      rw [heardBy, List.append_nil]
      exact h.critical fun m awaits => awaits.pace
  | receiveTimeout => exact h.critical fun m awaits => awaits.timeOut

end Link

end Dmx512
