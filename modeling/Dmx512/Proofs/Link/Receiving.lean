import Dmx512.Proofs.Frame.Store
import Dmx512.Proofs.Line.Session
import Dmx512.Proofs.Link.Publishing
import Dmx512.Proofs.Link.Wiring
import Dmx512.Proofs.Reception.Admission

/-!
# The receiving side of a link

Of all that can happen to a link, little concerns its receiver: it hears a signal, it serves
its timeout, its alarm is brought in line, it is started or stopped. `Receives` says so
once, and `Apart` is everything else. So the receiver has lived through the session that the
journal tells, from where it began anew, and every RDM frame that waits to be read was
admitted by it.
-/

namespace Dmx512

open Standard

/-- What is written for a frame, and the looks behind it, are apart from reception. -/
theorem Hands.apart {bytes : List UInt8} {entries : Journal} (h : Hands bytes entries) :
    ∀ entry ∈ entries, entry.event.IsApart := by
  intro entry mem
  rcases h.only entry mem with ⟨_, event⟩ | ⟨_, event⟩ <;> rw [event] <;> trivial

namespace Transmitter

variable {t t' : Transmitter} {entries : Journal}

theorem Continues.apart (h : t.Continues entries t') : ∀ entry ∈ entries, entry.event.IsApart := by
  cases h with
  | whole _ _ hands => exact List.forall_mem_cons.mpr ⟨trivial, hands.apart⟩
  | part _ _ hands => exact hands.apart

theorem Advances.apart {now : Micros} {next : Option Micros}
    (h : t.Advances now entries t' next) : ∀ entry ∈ entries, entry.event.IsApart := by
  cases h with
  | rest | overrun => exact nofun
  | lineBreak | mark => exact List.forall_mem_singleton.mpr trivial
  | whole _ hands => exact hands.apart
  | part _ _ _ hands => exact List.forall_mem_cons.mpr ⟨trivial, hands.apart⟩

end Transmitter

namespace Scene

variable {d r : Nat} {s m t : Scene d r}

/-- What happened was apart from reception: the receiver, its alarm and whether it runs are
as before, and so is what the journal tells of them. -/
structure Apart (s t : Scene d r) : Prop where
  receiver : t.engine.receiver = s.engine.receiver
  watchdog : t.engine.watchdog = s.engine.watchdog
  receiving : t.engine.receiving = s.engine.receiving
  journal : ∃ new : Journal, t.journal = new ++ s.journal ∧ ∀ entry ∈ new, entry.event.IsApart

namespace Apart

theorem trans (h : s.Apart m) (h' : m.Apart t) : s.Apart t := by
  obtain ⟨new, journal, apart⟩ := h.journal
  obtain ⟨more, journal', apart'⟩ := h'.journal
  refine ⟨h'.receiver.trans h.receiver, h'.watchdog.trans h.watchdog,
    h'.receiving.trans h.receiving, more ++ new, ?_, List.forall_mem_append.mpr ⟨apart', apart⟩⟩
  rw [journal', journal, List.append_assoc]

/-- What leaves the journal as it is. -/
theorem of_engine (journal : t.journal = s.journal)
    (receiver : t.engine.receiver = s.engine.receiver)
    (watchdog : t.engine.watchdog = s.engine.watchdog)
    (receiving : t.engine.receiving = s.engine.receiving) : s.Apart t :=
  ⟨receiver, watchdog, receiving, [], journal, nofun⟩

theorem note {event : Event} (apart : event.IsApart) (time : Micros) :
    s.Apart (s.note time event) :=
  ⟨rfl, rfl, rfl, [⟨time, event⟩], rfl, List.forall_mem_singleton.mpr apart⟩

theorem extend {entries : Journal} (apart : ∀ entry ∈ entries, entry.event.IsApart) :
    s.Apart (s.extend entries) :=
  ⟨rfl, rfl, rfl, entries, rfl, apart⟩

theorem withTransmitter (transmitter : Transmitter) : s.Apart (s.withTransmitter transmitter) :=
  .of_engine rfl rfl rfl rfl

theorem session (h : s.Apart t) : t.journal.session = s.journal.session := by
  obtain ⟨new, journal, apart⟩ := h.journal
  rw [journal, Journal.session_append apart]

theorem receiveAlarm? (h : s.Apart t) :
    t.journal.alarm? .receiveTimeout = s.journal.alarm? .receiveTimeout := by
  obtain ⟨new, journal, apart⟩ := h.journal
  rw [journal, Journal.receiveAlarm?_append apart]

/-- A line that is turned, or whose output is started or stopped, did not receive. -/
theorem of_deaf (before : s.engine.receiving = false) (after : t.engine.receiving = false)
    (receiver : t.engine.receiver = s.engine.receiver)
    (watchdog : t.engine.watchdog = s.engine.watchdog) (new : Journal)
    (journal : t.journal = new ++ s.journal) (apart : ∀ entry ∈ new, entry.event.IsApart) :
    s.Apart t :=
  ⟨receiver, watchdog, after.trans before.symm, new, journal, apart⟩

end Apart

/-- What can happen to a receiver. -/
inductive Receives (s : Scene d r) : Scene d r → Prop where
  /-- Nothing. -/
  | apart {t : Scene d r} (apart : s.Apart t) : Receives s t
  /-- It hears a signal. -/
  | hear {signal : Signal} {time : Micros} {receiver : Receiver} {frame : Option Frame}
      (receiving : s.engine.receiving = true)
      (heard : s.engine.receiver.hear signal time = .ok (receiver, frame)) :
      Receives s (((s.note time (.heard signal)).withReceiver receiver).publish time frame)
  /-- It serves its timeout, and its alarm is disarmed. -/
  | timeOut {time : Micros} {receiver : Receiver} {frame : Option Frame} (later : Micros)
      (served : s.engine.receiver.onTimeout time = .ok (receiver, frame)) :
      Receives s ((((s.note time .receiveAlarm).withReceiver receiver).publish time frame).watch
        later none)
  /-- Its alarm is brought in line. -/
  | sync (time : Micros) : Receives s (s.sync time)
  /-- It begins anew. -/
  | start (input : s.engine.direction = .input) (stopped : s.engine.running = false)
      (first second : Micros) : Receives s (s.start first second)
  /-- It is stopped. -/
  | halt (input : s.engine.direction = .input) (first second third : Micros) :
      Receives s (s.halt first second third)

theorem receiving_of_stopped (stopped : s.engine.running = false) :
    s.engine.receiving = false := by
  rw [Engine.receiving, stopped, Bool.false_and]

theorem receiving_of_output (output : s.engine.direction = .output) :
    s.engine.receiving = false := by
  rw [Engine.receiving, output, Bool.and_eq_false_iff]
  exact .inr rfl

theorem receives_start (stopped : s.engine.running = false) (first second : Micros) :
    s.Receives (s.start first second) := by
  cases direction : s.engine.direction with
  | input => exact .start direction stopped first second
  | output =>
      refine .apart (.of_deaf (receiving_of_stopped stopped) (receiving_of_output ?_) ?_ ?_
        [⟨second, .order (.setAlarm .transmit (first + startDelay))⟩, ⟨first, .clockRead⟩] ?_ ?_)
      · exact (standing_iff.mp (standing_start first second)).1.trans direction
      · rw [engine_start_output direction]
      · rw [engine_start_output direction]
      · rw [start_output _ _ direction]
        rfl
      · exact List.forall_mem_cons.mpr ⟨trivial, List.forall_mem_singleton.mpr trivial⟩

theorem receives_halt (first second third : Micros) :
    s.Receives (s.halt first second third) := by
  cases direction : s.engine.direction with
  | input => exact .halt direction first second third
  | output =>
      refine .apart (.of_deaf (receiving_of_output direction) (receiving_of_stopped ?_) ?_ ?_
        [⟨third, .order (.cancelAlarm .transmit)⟩, ⟨second, .order (.setBreak false)⟩,
          ⟨first, .order (.allowTransmit false)⟩] ?_ ?_)
      · exact (standing_iff.mp (standing_halt first second third)).2.1
      · rw [engine_halt_output direction]
      · rw [engine_halt_output direction]
      · rw [halt_output _ _ _ direction]
        rfl
      · exact List.forall_mem_cons.mpr ⟨trivial, List.forall_mem_cons.mpr
          ⟨trivial, List.forall_mem_singleton.mpr trivial⟩⟩

end Scene

section

variable {d r : Nat} {kind : Step.Kind} {kinds : Step.Kind → Prop} {s t : Scene d r}

/-- What a step does on the receiving side. -/
theorem Step.receives (step : Step kind s t) : s.Receives t := by
  cases step with
  | readClock | sample | refuse | setBreak | write | paceIdle => exact .apart (.note (by trivial) _)
  | hear receiving heard => exact .hear receiving heard
  | timeOut later served => exact .timeOut later served
  | sync time => exact .sync time
  | resume continues =>
      exact .apart ((Scene.Apart.withTransmitter _).trans (.extend continues.apart))
  | @pace _ _ _ _ next later sending advances =>
      have alarm : (Event.order (alarmOrder .transmit next)).IsApart := by
        cases next <;> trivial
      exact .apart ((((Scene.Apart.note (by trivial) _).trans (.withTransmitter _)).trans
        (.extend advances.apart)).trans (.note alarm later))
  | queue => exact .apart ((Scene.Apart.withTransmitter _).trans (.note (by trivial) _))
  | configure | requestStop => exact .apart (.withTransmitter _)
  | takeDmx | takeRdm | flush | claim | release => exact .apart (.of_engine rfl rfl rfl rfl)
  | turn driven time direction stopped released =>
      have deaf : s.engine.receiving = false := Scene.receiving_of_stopped stopped
      have deaf' : (s.turn driven time direction).engine.receiving = false :=
        Scene.receiving_of_stopped stopped
      refine .apart (.of_deaf deaf deaf' rfl rfl
        [⟨time, .turned direction⟩, ⟨driven, .pin direction.pinLevel true⟩] rfl ?_)
      exact List.forall_mem_cons.mpr ⟨trivial, List.forall_mem_singleton.mpr trivial⟩
  | start first second _ stopped => exact Scene.receives_start stopped first second
  | halt first second third => exact Scene.receives_halt first second third

end

namespace Scene

variable {d r : Nat} {s t : Scene d r}

theorem session_watch (time : Micros) (watchdog : Option Micros) :
    (s.watch time watchdog).journal.session = s.journal.session := by
  cases watchdog <;> rfl

theorem session_sync (time : Micros) : (s.sync time).journal.session = s.journal.session := by
  rw [sync]
  split
  · rfl
  · exact session_watch time _

/-- What a response publishes is told with it. -/
theorem session_publish {story : List Occasion} {cause : Cause} {now time : Micros}
    (frame : Option Frame) (told : s.journal.session = story ++ [⟨cause, now, []⟩]) :
    (s.publish time frame).journal.session = story ++ [⟨cause, now, frame.toList⟩] := by
  rcases frame with - | frame | frame
  · exact told
  · exact Journal.session_published time (.dmx frame) told
  · exact Journal.session_published time (.rdm frame) told

end Scene

namespace Journal

/-- Whenever a frame was published, a receiver had lived through the session that a journal
tells up to then, from where it began anew, and published the frame in the end. -/
def Attested : Journal → Prop
  | [] => True
  | ⟨time, .published frame⟩ :: earlier =>
    (∃ (r t : Receiver) (story : List Occasion) (o : Occasion), r.IsFresh ∧
      r.Follows (story ++ [o]) t ∧ frame ∈ o.published ∧
      session (⟨time, .published frame⟩ :: earlier) = story ++ [o]) ∧ Attested earlier
  | _ :: earlier => Attested earlier

theorem attested_cons {entry : Entry} {earlier : Journal} (apart : entry.event.IsApart)
    (attested : Attested earlier) : Attested (entry :: earlier) := by
  obtain ⟨time, event⟩ := entry
  cases event with
  | heard | published | receiveAlarm => exact apart.elim
  | order | pin | clockRead | sampled | queued | turned | transmitAlarm => exact attested

theorem attested_append {new earlier : Journal} (apart : ∀ entry ∈ new, entry.event.IsApart)
    (attested : Attested earlier) : Attested (new ++ earlier) := by
  induction new with
  | nil => exact attested
  | cons entry rest ih =>
      obtain ⟨first, others⟩ := List.forall_mem_cons.mp apart
      exact attested_cons first (ih others)

theorem Attested.split {later earlier : Journal} {time : Micros} {frame : Frame}
    (h : Attested (later ++ ⟨time, .published frame⟩ :: earlier)) :
    ∃ (r t : Receiver) (story : List Occasion) (o : Occasion), r.IsFresh ∧
      r.Follows (story ++ [o]) t ∧ frame ∈ o.published ∧
      session (⟨time, .published frame⟩ :: earlier) = story ++ [o] := by
  induction later with
  | nil => exact h.1
  | cons entry rest ih =>
      obtain ⟨time', event⟩ := entry
      cases event with
      | published => exact ih h.2
      | heard | receiveAlarm | order | pin | clockRead | sampled | queued | turned
      | transmitAlarm => exact ih h

end Journal

namespace Scene

variable {d r : Nat} {s t : Scene d r}

theorem attested_watch (attested : s.journal.Attested) (time : Micros)
    (watchdog : Option Micros) : (s.watch time watchdog).journal.Attested := attested

theorem attested_sync (attested : s.journal.Attested) (time : Micros) :
    (s.sync time).journal.Attested := by
  rw [sync]
  split
  · exact attested
  · exact attested_watch attested time _

/-- The receiver of a link has lived through the session that its journal tells, from where it
began anew. -/
def Lives (s : Scene d r) : Prop :=
  ∃ r : Receiver, r.IsFresh ∧ r.Follows s.journal.session s.engine.receiver

/-- A response joins the session, and attests what it publishes. -/
theorem Lives.respond (h : s.Lives) (cause : Cause) (event : Event) {time : Micros}
    {receiver : Receiver} {frame : Option Frame}
    (told : Journal.session (⟨time, event⟩ :: s.journal) =
      s.journal.session ++ [⟨cause, time, []⟩])
    (attested : Journal.Attested (⟨time, event⟩ :: s.journal))
    (attended : s.engine.receiver.attend cause time = .ok (receiver, frame)) :
    (((s.note time event).withReceiver receiver).publish time frame).Lives ∧
      (((s.note time event).withReceiver receiver).publish time frame).journal.Attested := by
  obtain ⟨r, fresh, follows⟩ := h
  have longer : r.Follows (s.journal.session ++ [⟨cause, time, frame.toList⟩]) receiver :=
    follows.append (.cons attended rfl (.nil _))
  have session : (((s.note time event).withReceiver receiver).publish time frame).journal.session =
      s.journal.session ++ [⟨cause, time, frame.toList⟩] := session_publish frame told
  refine ⟨⟨r, fresh, ?_⟩, ?_⟩
  · rw [session, engine_publish]
    exact longer
  · rcases frame with - | frame | frame
    · exact attested
    · exact ⟨⟨r, _, _, _, fresh, longer, List.mem_singleton.mpr rfl, session⟩, attested⟩
    · exact ⟨⟨r, _, _, _, fresh, longer, List.mem_singleton.mpr rfl, session⟩, attested⟩

/-- Whatever can happen to a receiver, the session and what was published in it are told. -/
theorem Receives.lives (h : s.Receives t) (lives : s.Lives) (attested : s.journal.Attested) :
    t.Lives ∧ t.journal.Attested := by
  cases h with
  | apart apart =>
      obtain ⟨new, journal, others⟩ := apart.journal
      refine ⟨?_, journal ▸ Journal.attested_append others attested⟩
      rw [Lives, apart.session, apart.receiver]
      exact lives
  | @hear signal time _ _ receiving heard =>
      exact lives.respond (.signal signal) (.heard signal) rfl attested heard
  | timeOut later served =>
      obtain ⟨⟨r, fresh, follows⟩, attested'⟩ :=
        lives.respond .timeout .receiveAlarm rfl attested served
      refine ⟨⟨r, fresh, ?_⟩, attested_watch attested' later none⟩
      rw [session_watch]
      exact follows
  | sync time =>
      refine ⟨?_, attested_sync attested time⟩
      rw [Lives, session_sync, engine_sync]
      exact lives
  | start input stopped first second =>
      rw [Lives, engine_start_input input, start_input _ _ input]
      exact ⟨⟨_, .reset _, .nil _⟩, attested⟩
  | halt input first second third =>
      have masked := attested_sync (s := (s.order first (.allowReceive false)).withReceiver
        s.engine.receiver.reset) attested second
      have ended : (s.halt first second third).journal.session = [] := by
        rw [halt_input _ _ _ input]
        exact (session_sync second).trans (Journal.session_allowReceive first false)
      rw [Lives, engine_halt_input input, ended, halt_input _ _ _ input]
      exact ⟨⟨_, .reset _, .nil _⟩, masked⟩

/-- What the journal of a link tells of its receiver is what the receiver has lived through,
and the RDM frames that wait to be read are those that it admits. -/
structure Recounts (s : Scene d r) : Prop where
  lives : s.Lives
  attested : s.journal.Attested
  unread : ∀ frame ∈ s.rdmStore.unread, frame.IsAdmitted

end Scene

section

variable {d r : Nat} {kind : Step.Kind} {kinds : Step.Kind → Prop} {s t : Scene d r}

/-- Only interrupts bring RDM frames. -/
theorem Step.mem_unread (step : Step kind s t) (other : kind ≠ .interrupt) {frame : RdmFrame}
    (mem : frame ∈ t.rdmStore.unread) : frame ∈ s.rdmStore.unread := by
  cases step with
  | readClock | sample | hear | timeOut | sync | resume | pace | paceIdle => exact absurd rfl other
  | queue | configure | takeDmx | claim | release | refuse | turn | requestStop | setBreak
  | write =>
      exact mem
  | takeRdm popped =>
      rw [Frame.Store.unread_pop popped]
      exact List.mem_cons_of_mem _ mem
  | flush =>
      rw [Frame.Store.unread_clear] at mem
      cases mem
  | start first second =>
      rw [(Scene.Publishes.start (s := s) first second).rdmStore] at mem
      exact mem
  | halt first second third =>
      rw [(Scene.Publishes.halt (s := s) first second third).rdmStore] at mem
      exact mem

theorem Step.recounts (step : Step kind s t) (h : s.Recounts) : t.Recounts := by
  obtain ⟨lives, attested⟩ := step.receives.lives h.lives h.attested
  refine ⟨lives, attested, fun frame mem => ?_⟩
  -- Frames come in with interrupts only: what the receiver published before and publishes now
  -- is of one story from where it was fresh. All other steps take frames or leave them.
  by_cases interrupt : kind = .interrupt
  · subst interrupt
    obtain ⟨r, fresh, follows⟩ := h.lives
    obtain ⟨story, hears⟩ := step.hears
    obtain ⟨admits, _⟩ := (Receiver.Admits.of_fresh fresh).follows follows
    rw [hears.rdmStore] at mem
    rcases Frame.Store.mem_unread_pushAll mem with before | now
    · exact h.unread frame before
    · obtain ⟨published, shown, same⟩ := List.mem_filterMap.mp now
      obtain ⟨o, told, published'⟩ := List.mem_flatMap.mp shown
      obtain rfl : published = .rdm frame := by
        cases published with
        | dmx => cases same
        | rdm => cases same; rfl
      exact (admits.follows hears.follows).2 o told frame published'
  · exact h.unread frame (step.mem_unread interrupt mem)

theorem Steps.recounts (steps : Steps kinds s t) (h : s.Recounts) : t.Recounts := by
  induction steps with
  | refl => exact h
  | tail _ step ih =>
      obtain ⟨_, _, step⟩ := step
      exact step.recounts ih

end

end Dmx512
