import Dmx512.Proofs.Link.Framing
import Dmx512.Proofs.Link.Service
import Dmx512.Proofs.Link.Settled
import Mathlib.Data.List.Chain

/-!
# The course of a transmit sequence

While a link sends and is left alone, what happens to it is a row of services of its
transmit alarm, between which the sequence drifts: no alarm is served or set, and no
break is put on the line. Where every alarm is served at its deadline, each of these
services follows the one before.
-/

namespace Dmx512

/-- Whatever happens keeps the timing resolved, and all but what sets the timing leaves
its request as it is. -/
theorem Step.timed {d r : Nat} {kind : Step.Kind} {s t : Scene d r} (step : Step kind s t)
    (h : s.engine.transmitter.Timed) :
    t.engine.transmitter.Timed ∧
      (kind ≠ .adjust →
        t.engine.transmitter.timing.request = s.engine.transmitter.timing.request) := by
  cases step with
  | readClock | sample | paceIdle | takeDmx | takeRdm | flush | claim | release | refuse | turn
  | requestStop | setBreak | write => exact ⟨h.congr rfl rfl rfl, fun _ => rfl⟩
  | hear =>
      rw [Scene.engine_publish]
      exact ⟨h.congr rfl rfl rfl, fun _ => rfl⟩
  | timeOut =>
      change (Scene.publish _ _ _).engine.transmitter.Timed ∧ (_ →
        (Scene.publish _ _ _).engine.transmitter.timing.request = _)
      rw [Scene.engine_publish]
      exact ⟨h.congr rfl rfl rfl, fun _ => rfl⟩
  | sync =>
      rw [Scene.engine_sync]
      exact ⟨h.congr rfl rfl rfl, fun _ => rfl⟩
  | resume continues =>
      obtain ⟨timed, request⟩ := continues.timed h
      exact ⟨timed, fun _ => request⟩
  | pace _ _ advances =>
      obtain ⟨timed, request⟩ := advances.timed h
      exact ⟨timed, fun _ => request⟩
  | queue _ queued =>
      obtain ⟨timed, request⟩ := h.queue queued
      exact ⟨timed, fun _ => request⟩
  | configure configured =>
      exact ⟨(Transmitter.Timed.configure configured).1, fun other => absurd rfl other⟩
  | start =>
      rw [Scene.start]
      split <;> exact ⟨h.congr rfl rfl rfl, fun _ => rfl⟩
  | halt =>
      cases direction : s.engine.direction with
      | input =>
          rw [Scene.engine_halt_input direction]
          exact ⟨h.congr rfl rfl rfl, fun _ => rfl⟩
      | output =>
          rw [Scene.engine_halt_output direction]
          exact ⟨h.congr rfl rfl rfl, fun _ => rfl⟩

theorem Steps.timed {d r : Nat} {kinds : Step.Kind → Prop} {s t : Scene d r}
    (steps : Steps kinds s t) (h : s.engine.transmitter.Timed) :
    t.engine.transmitter.Timed ∧
      (¬ kinds .adjust →
        t.engine.transmitter.timing.request = s.engine.transmitter.timing.request) := by
  induction steps with
  | refl => exact ⟨h, fun _ => rfl⟩
  | tail _ step ih =>
      obtain ⟨kind, within, step⟩ := step
      obtain ⟨timed, request⟩ := step.timed ih.1
      exact ⟨timed, fun others =>
        (request fun adjust => others (adjust ▸ within)).trans (ih.2 others)⟩

namespace Journal

/-- The transmit alarms that were served, newest first: when, and in which phase of the
sequence. -/
def alarms : Journal → List (Micros × TransmitState)
  | [] => []
  | ⟨time, .transmitAlarm state⟩ :: earlier => (time, state) :: alarms earlier
  | _ :: earlier => alarms earlier

theorem alarms_cons {entry : Entry} {earlier : Journal} (other : entry.event.topic ≠ .alarm) :
    alarms (entry :: earlier) = alarms earlier := by
  obtain ⟨time, event⟩ := entry
  cases event with
  | transmitAlarm => contradiction
  | heard | published | receiveAlarm | queued | order | pin | clockRead | sampled | turned => rfl

theorem alarms_append {new earlier : Journal} (lacks : Lacks .alarm new) :
    alarms (new ++ earlier) = alarms earlier := by
  induction new with
  | nil => rfl
  | cons entry rest ih =>
      obtain ⟨first, others⟩ := List.forall_mem_cons.mp lacks
      rw [List.cons_append, alarms_cons first, ih others]

/-- Behind `base`, every transmit alarm is served at the time to which it was set. -/
def Punctual (base : Journal) : Journal → Prop
  | [] => True
  | entry :: earlier =>
    (entry.event.topic = .alarm → alarm? .transmit (earlier ++ base) = some entry.time) ∧
      Punctual base earlier

instance Punctual.decide (base : Journal) : (new : Journal) → Decidable (Punctual base new)
  | [] => .isTrue trivial
  | _ :: earlier =>
    have := Punctual.decide base earlier
    inferInstanceAs (Decidable (_ ∧ _))

theorem Punctual.of_append {base new earlier : Journal} (h : Punctual base (new ++ earlier)) :
    Punctual base earlier := by
  induction new with
  | nil => exact h
  | cons entry rest ih => exact ih h.2

end Journal

namespace Scene

variable {d r : Nat} {held : Prop} {s m t : Scene d r} {services : List Service}
variable {entries more new : Journal}

def serve (s : Scene d r) (service : Service) (later : Micros) : Scene d r :=
  (((s.note service.time (.transmitAlarm service.before.state)).withTransmitter
    service.after).extend service.entries).order later (.setAlarm .transmit service.next)

/-- A link went on between two services of its transmit alarm, and left entries of other
things. -/
structure Drifts (held : Prop) (s : Scene d r) (entries : Journal) (t : Scene d r) : Prop where
  transmitter : s.engine.transmitter.Drifts held t.engine.transmitter
  journal : t.journal = entries ++ s.journal
  plain : entries.Plain
  lacks : entries.Lacks .alarm
  alarm : t.journal.alarm? .transmit = s.journal.alarm? .transmit

namespace Drifts

theorem refl (s : Scene d r) : Drifts held s [] s := ⟨.refl _, rfl, nofun, nofun, rfl⟩

theorem trans (first : Drifts held s entries m) (second : Drifts held m more t) :
    Drifts held s (more ++ entries) t where
  transmitter := first.transmitter.trans second.transmitter
  journal := by rw [second.journal, first.journal, List.append_assoc]
  plain := second.plain.append first.plain
  lacks := List.forall_mem_append.mpr ⟨second.lacks, first.lacks⟩
  alarm := second.alarm.trans first.alarm

theorem mono {held' : Prop} (h : Drifts held s entries t) (imp : held' → held) :
    Drifts held' s entries t :=
  { h with transmitter := h.transmitter.mono imp }

/-- What does not touch the sequence, and tells the hardware nothing that lasts. -/
theorem of_aside (aside : Aside s t) (levels : t.journal.levels = s.journal.levels) :
    ∃ entries, Drifts held s entries t := by
  obtain ⟨entries, journal, topics⟩ := aside.journal
  have lacks {topic : Event.Topic} (other : ¬ topic.IsAside) : entries.Lacks topic :=
    .of_aside topics other
  refine ⟨entries, ?_, journal, (lacks (by decide)).plain, lacks (by decide),
    congrArg Levels.alarm levels⟩
  rw [aside.transmitter]
  exact .refl _

/-- Neither the sequence nor the journal is touched. -/
theorem of_eq (transmitter : t.engine.transmitter = s.engine.transmitter)
    (journal : t.journal = s.journal) : Drifts held s [] t where
  transmitter := transmitter ▸ .refl _
  journal := journal
  plain := nofun
  lacks := nofun
  alarm := congrArg (Journal.alarm? .transmit) journal

/-- The transmitter is given something for later. -/
theorem withTransmitter {transmitter : Transmitter}
    (drifts : s.engine.transmitter.Drifts held transmitter) :
    Drifts held s [] (s.withTransmitter transmitter) :=
  ⟨drifts, rfl, nofun, nofun, rfl⟩

/-- Room in the interface lets the bytes of a frame go on. -/
theorem resume {transmitter : Transmitter}
    (continues : s.engine.transmitter.Continues entries transmitter) :
    Drifts held s entries ((s.withTransmitter transmitter).extend entries) where
  transmitter := by
    cases continues with
    | whole _ phase => exact ⟨rfl, rfl, .inr ⟨phase, rfl⟩, fun _ _ => rfl⟩
    | part => exact ⟨rfl, rfl, .inl rfl, fun _ _ => rfl⟩
  journal := rfl
  plain := (continues.lacks (by decide)).plain
  lacks := continues.lacks (by decide)
  alarm := by
    change (Journal.levels (entries ++ s.journal)).alarm = s.journal.levels.alarm
    cases continues with
    | whole _ _ hands =>
        rw [List.cons_append, Journal.levels_allowTransmit, Journal.levels_append hands.quiet]
    | part _ _ hands => rw [Journal.levels_append hands.quiet]

end Drifts

/-- A link went on from `s` by services of its transmit alarm, newest first, and by what
it drifted between them, and left `new` entries. -/
inductive Serves (held : Prop) (s : Scene d r) : List Service → Journal → Scene d r → Prop where
  | start : Serves held s [] [] s
  | drift {services : List Service} {new entries : Journal} {m t : Scene d r}
      (served : Serves held s services new m) (drifts : m.Drifts held entries t) :
      Serves held s services (entries ++ new) t
  | serve {services : List Service} {new : Journal} {m : Scene d r}
      (served : Serves held s services new m) (service : Service) (later : Micros)
      (found : service.before = m.engine.transmitter) :
      Serves held s (service :: services)
        (⟨later, .order (.setAlarm .transmit service.next)⟩ ::
          (service.entries ++ ⟨service.time, .transmitAlarm service.before.state⟩ :: new))
        (m.serve service later)

namespace Serves

theorem journal (h : Serves held s services new t) : t.journal = new ++ s.journal := by
  induction h with
  | start => rfl
  | drift _ drifts ih => rw [drifts.journal, ih, List.append_assoc]
  | @serve _ _ m _ service later _ ih =>
      change _ :: (service.entries ++ _ :: m.journal) = _
      rw [ih, List.cons_append, List.append_assoc]
      rfl

theorem trans {others : List Service} (first : Serves held s services new m)
    (second : Serves held m others more t) :
    Serves held s (others ++ services) (more ++ new) t := by
  induction second with
  | start => exact first
  | drift _ drifts ih =>
      rw [List.append_assoc]
      exact ih.drift drifts
  | serve _ service later found ih =>
      rw [List.cons_append, List.cons_append, List.append_assoc, List.cons_append]
      exact ih.serve service later found

theorem mono {held' : Prop} (h : Serves held s services new t) (imp : held' → held) :
    Serves held' s services new t := by
  induction h with
  | start => exact .start
  | drift _ drifts ih => exact ih.drift (drifts.mono imp)
  | serve _ service later found ih => exact ih.serve service later found

/-- The services are those of the alarms that the journal tells of. -/
theorem alarms (h : Serves held s services new t) : services.map Service.alarm = new.alarms := by
  induction h with
  | start => rfl
  | drift _ drifts ih => rw [Journal.alarms_append drifts.lacks, ih]
  | serve _ service later _ ih =>
      have lacks : service.entries.Lacks .alarm := service.advances.lacks (by decide)
      rw [List.map_cons, ih, Journal.alarms_cons (by simp [Event.topic]),
        Journal.alarms_append lacks]
      rfl

/-- Every break that was put on the line is one that a service began a frame with. -/
theorem breaks (h : Serves held s services new t) :
    ∀ entry ∈ new, entry.BeginsBreak → ∃ a ∈ services, a.BeginsFrame ∧ entry ∈ a.entries := by
  induction h with
  | start => exact nofun
  | drift _ drifts ih =>
      intro entry mem begins
      rcases List.mem_append.mp mem with here | there
      · exact absurd begins (drifts.plain entry here)
      · exact ih entry there begins
  | serve _ service later found ih =>
      intro entry mem begins
      simp only [List.mem_cons, List.mem_append] at mem
      rcases mem with rfl | here | rfl | there
      · cases begins
      · exact ⟨service, List.mem_cons_self, service.beginsFrame_of_mem here begins, here⟩
      · cases begins
      · obtain ⟨a, among, first⟩ := ih entry there begins
        exact ⟨a, List.mem_cons_of_mem _ among, first⟩

/-- Where every alarm is served at its deadline, each service follows the one before. -/
theorem follows (h : Serves held s services new t)
    (punctual : Journal.Punctual s.journal new) :
    services.IsChain (fun b a => a.Follows held b) ∧
      ∀ a ∈ services.head?, a.after.Drifts held t.engine.transmitter ∧
        t.journal.alarm? .transmit = some a.next := by
  induction h with
  | start => exact ⟨.nil, by simp⟩
  | drift _ drifts ih =>
      obtain ⟨chain, last⟩ := ih punctual.of_append
      refine ⟨chain, fun a newest => ?_⟩
      obtain ⟨drifted, alarm⟩ := last a newest
      exact ⟨drifted.trans drifts.transmitter, drifts.alarm.trans alarm⟩
  | serve served service later found ih =>
      obtain ⟨onTime, earlier⟩ := punctual.2.of_append
      obtain ⟨chain, last⟩ := ih earlier
      refine ⟨List.isChain_cons.mpr ⟨fun a newest => ?_, chain⟩, fun a newest => ?_⟩
      · obtain ⟨drifted, alarm⟩ := last a newest
        have due := onTime rfl
        rw [← served.journal, alarm] at due
        exact ⟨found ▸ drifted, (Option.some.inj due).symm⟩
      · obtain rfl := Option.some.inj newest
        exact ⟨.refl _, rfl⟩

/-- Any three services in a row follow one another, and the one behind them follows the
last. -/
theorem row (h : Serves held s services new t) (punctual : Journal.Punctual s.journal new)
    {a b c : Service} {later earlier : List Service}
    (split : services = later ++ c :: b :: a :: earlier) :
    a.Follows held b ∧ b.Follows held c ∧ ∀ d ∈ later.getLast?, c.Follows held d := by
  obtain ⟨chain, _⟩ := h.follows punctual
  rw [split] at chain
  obtain ⟨_, behind, joins⟩ := List.isChain_append.mp chain
  obtain ⟨second, behind⟩ := List.isChain_cons_cons.mp behind
  obtain ⟨first, _⟩ := List.isChain_cons_cons.mp behind
  exact ⟨first, second, fun d last => joins d last c rfl⟩

end Serves

end Scene

section

variable {d r : Nat} {kind : Step.Kind} {kinds : Step.Kind → Prop} {held : Prop}
variable {s t : Scene d r}

open Scene (Drifts Aside)

/-- What happens to a link that sends, beside control, is a service of its alarm or a
drift. Where the settings are held, the timing may not be set. -/
theorem Step.serves (step : Step kind s t) (calm : kind.IsCalm) (sound : s.Sound)
    (timed : s.engine.transmitter.Timed) (goesOn : s.engine.transmitter.stopping = false)
    (sending : s.engine.sending = true) (holds : held → kind ≠ .adjust) :
    ∃ services new, s.Serves held services new t := by
  have drifted (h : ∃ entries, Drifts held s entries t) :
      ∃ services new, s.Serves held services new t := by
    obtain ⟨entries, drifts⟩ := h
    exact ⟨[], _, .drift .start drifts⟩
  have settings (held' : held) : t.engine.transmitter.timing.settings =
      s.engine.transmitter.timing.settings :=
    Timing.settings_eq ((step.timed timed).2 (holds held'))
  cases step with
  | claim | release | refuse | turn | requestStop | start | halt | setBreak | write =>
      simp [Step.Kind.IsCalm] at calm
  | readClock time => exact drifted (Drifts.of_aside (.note (by decide) time) rfl)
  | sample time status =>
      exact drifted (Drifts.of_aside (.note (by simp [Event.topic, Event.Topic.IsAside]) time) rfl)
  | @hear _ signal time receiver frame =>
      have noted : s.Aside (s.note time (.heard signal)) :=
        .note (by simp [Event.topic, Event.Topic.IsAside]) time
      exact drifted
        (Drifts.of_aside ((noted.trans (.withReceiver receiver)).trans (.publish time frame))
          (Scene.levels_publish _ _))
  | @timeOut _ time receiver frame later =>
      have noted : s.Aside (s.note time .receiveAlarm) := .note (by decide) time
      refine drifted (Drifts.of_aside (((noted.trans (.withReceiver receiver)).trans
        (.publish time frame)).trans (.watch later none)) ?_)
      rw [Scene.levels_watch, Scene.levels_publish]
      rfl
  | sync time => exact drifted (Drifts.of_aside (.sync time) (Scene.levels_sync time))
  | resume continues => exact drifted ⟨_, .resume continues⟩
  | @pace _ now entries transmitter next later _ advances =>
      obtain ⟨deadline, rfl⟩ := advances.exists_next goesOn
      let service : Service :=
        { time := now, before := s.engine.transmitter, entries, after := transmitter
          next := deadline, wellFormed := sound.transmitter, timed, advances }
      exact ⟨[service], _, .serve .start service later rfl⟩
  | paceIdle _ idle =>
      rw [sending] at idle
      contradiction
  | @queue _ frame transmitter time queued =>
      have given : s.engine.transmitter.Drifts held transmitter := by
        obtain ⟨_, timing, rfl⟩ := Transmitter.eq_of_queue queued
        exact ⟨rfl, rfl, .inl rfl, fun held' _ => settings held'⟩
      have noted : Aside (s.withTransmitter transmitter)
          ((s.withTransmitter transmitter).note time (.queued frame)) :=
        .note (by simp [Event.topic, Event.Topic.IsAside]) time
      obtain ⟨entries, drifts⟩ := Drifts.of_aside noted rfl
      exact drifted ⟨_, (Drifts.withTransmitter given).trans drifts⟩
  | @configure _ config transmitter configured =>
      have given : s.engine.transmitter.Drifts held transmitter := by
        obtain ⟨timing, configures⟩ := s.engine.transmitter.configure_ok config
        cases configures.symm.trans configured
        exact ⟨rfl, rfl, .inl rfl, fun held' _ => settings held'⟩
      exact drifted ⟨_, .withTransmitter given⟩
  | takeDmx | takeRdm | flush => exact drifted ⟨[], .of_eq rfl rfl⟩

/-- While a link sends and is left alone, its transmit alarm is served. -/
theorem Steps.serves (steps : Steps kinds s t) (calm : ∀ kind, kinds kind → kind.IsCalm)
    (sound : s.Sound) (timed : s.engine.transmitter.Timed)
    (goesOn : s.engine.transmitter.stopping = false) (sending : s.engine.sending = true)
    (holds : held → ¬ kinds .adjust) : ∃ services new, s.Serves held services new t := by
  induction steps with
  | refl => exact ⟨[], [], .start⟩
  | @tail m t steps step ih =>
      obtain ⟨kind, within, step⟩ := step
      obtain ⟨services, new, served⟩ := ih
      have keeps := Steps.keeps steps calm
      have sending' := (Scene.sending_of_standing keeps.standing).trans sending
      obtain ⟨others, more, served'⟩ := step.serves (calm kind within) (Steps.sound steps sound)
        (Steps.timed steps timed).1 (keeps.stopping.trans goesOn) sending'
        (fun held' adjust => holds held' (adjust ▸ within))
      exact ⟨_, _, served.trans served'⟩

/-- What only sets the timing lets the sequence drift. -/
theorem Steps.drifts_adjust (steps : Steps (· = .adjust) s t) : Drifts False s [] t := by
  induction steps with
  | refl => exact .refl s
  | @tail m _ _ step ih =>
      obtain ⟨_, rfl, step⟩ := step
      cases step with
      | @configure _ config _ configured =>
          obtain ⟨timing, configures⟩ := m.engine.transmitter.configure_ok config
          cases configures.symm.trans configured
          have given : m.engine.transmitter.Drifts False { m.engine.transmitter with timing } :=
            ⟨rfl, rfl, .inl rfl, nofun⟩
          exact ih.trans (.withTransmitter given)

end

end Dmx512
