import Dmx512.Proofs.Link.Framing
import Dmx512.Proofs.Link.Wiring

/-!
# How much of its frame a sequence has written

A break that is put on the line while the transmit alarm is set belongs to a transmit
sequence, which goes on until the next break or until the alarm is disarmed. Whatever a
link is asked for, the bytes written behind such a break are a front part of the frame
that was queued last before it.
-/

namespace Dmx512

def Entry.EndsFrame (entry : Entry) : Prop :=
  entry.BeginsBreak ∨ entry.event = .order (.cancelAlarm .transmit)

instance (entry : Entry) : Decidable entry.EndsFrame :=
  inferInstanceAs (Decidable (entry.event = _ ∨ entry.event = _))

namespace Journal

/-- Behind `earlier` a transmit sequence has begun a break, `first`, and the entries
behind it belong to its frame. -/
structure InFrame (entries : Journal) (first : Entry) (earlier : Journal) : Prop where
  begins : first.BeginsBreak
  armed : (earlier.alarm? .transmit).isSome = true
  goesOn : ∀ entry ∈ entries, ¬ entry.EndsFrame

/-- The frame of the sequence that is under way is `wire`, of which `taken` is written;
of any frame before, a front part. -/
structure Emits (journal : Journal) (wire taken : List UInt8) : Prop where
  current : ∀ entries first earlier, journal = entries ++ first :: earlier →
    InFrame entries first earlier → entries.written = taken ∧ wire = latestFrame earlier
  past : ∀ entries first earlier, entries ++ first :: earlier <:+ journal →
    InFrame entries first earlier → entries.written <+: latestFrame earlier

variable {journal entries new earlier : Journal} {first entry : Entry}
variable {wire taken : List UInt8}

/-- An alarm stays set until it is disarmed. -/
theorem isSome_alarm?_cons (armed : (earlier.alarm? .transmit).isSome = true)
    (kept : entry.event ≠ .order (.cancelAlarm .transmit)) :
    (alarm? .transmit (entry :: earlier)).isSome = true := by
  obtain ⟨time, event⟩ := entry
  cases event with
  | order order =>
      cases order with
      | setAlarm alarm deadline =>
          cases alarm with
          | transmit => rfl
          | receiveTimeout => exact armed
      | cancelAlarm alarm =>
          cases alarm with
          | transmit => contradiction
          | receiveTimeout => exact armed
      | setBreak | allowReceive | allowTransmit | clearReceive | write => exact armed
  | pin | clockRead | sampled | heard | published | queued | turned | transmitAlarm
  | receiveAlarm => exact armed

/-- The transmit alarm is set during a frame. -/
theorem InFrame.isSome_alarm? (h : InFrame entries first earlier) :
    (alarm? .transmit (entries ++ first :: earlier)).isSome = true := by
  obtain ⟨begins, armed, goesOn⟩ := h
  induction entries with
  | nil => exact isSome_alarm?_cons armed (by rw [begins]; simp)
  | cons entry rest ih =>
      obtain ⟨here, others⟩ := List.forall_mem_cons.mp goesOn
      exact isSome_alarm?_cons (ih others) fun cancels => here (.inr cancels)

theorem InFrame.rest (h : InFrame (entry :: entries) first earlier) :
    InFrame entries first earlier :=
  ⟨h.begins, h.armed, fun other mem => h.goesOn other (List.mem_cons_of_mem _ mem)⟩

namespace Emits

theorem nil (wire taken : List UInt8) : Emits [] wire taken := by
  constructor <;> simp

/-- What holds of the frame under way holds of every frame with one entry more. -/
theorem of_current {wire' taken' : List UInt8} (h : Emits journal wire taken)
    (current : ∀ entries first earlier, entry :: journal = entries ++ first :: earlier →
      InFrame entries first earlier → entries.written = taken' ∧ wire' = latestFrame earlier)
    (part : taken' <+: wire') : Emits (entry :: journal) wire' taken' := by
  refine ⟨current, fun entries first earlier older within => ?_⟩
  rcases List.suffix_cons_iff.mp older with same | older
  · obtain ⟨written, latest⟩ := current entries first earlier same.symm within
    rw [written, ← latest]
    exact part
  · exact h.past entries first earlier older within

/-- An entry that begins no break belongs to the frame under way. -/
theorem cons (h : Emits journal wire taken) (plain : ¬ entry.BeginsBreak)
    (part : taken ++ written [entry] <+: wire) :
    Emits (entry :: journal) wire (taken ++ written [entry]) := by
  refine h.of_current (fun entries first earlier split within => ?_) part
  cases entries with
  | nil => exact absurd ((List.cons.inj split).1 ▸ within.begins) plain
  | cons newest entries =>
      obtain ⟨rfl, behind⟩ := List.cons.inj split
      obtain ⟨before, latest⟩ := h.current entries first earlier behind within.rest
      refine ⟨?_, latest⟩
      rw [show entry :: entries = [entry] ++ entries from rfl, written_append, before]

theorem extend (h : Emits journal wire taken) (plain : Plain new)
    (part : taken ++ written new <+: wire) :
    Emits (new ++ journal) wire (taken ++ written new) := by
  induction new with
  | nil => simpa [written] using h
  | cons entry rest ih =>
      obtain ⟨here, others⟩ := List.forall_mem_cons.mp plain
      rw [show entry :: rest = [entry] ++ rest from rfl, written_append,
        ← List.append_assoc] at part ⊢
      exact (ih others ((List.prefix_append _ _).trans part)).cons here part

/-- Entries that begin no break and write no byte leave the frame under way as it is. -/
theorem silent (h : Emits journal wire taken) (part : taken <+: wire) (plain : Plain new)
    (lacks : Lacks .byte new) : Emits (new ++ journal) wire taken := by
  have nothing := written_eq_nil lacks
  have extended := h.extend plain (by rw [nothing, List.append_nil]; exact part)
  rwa [nothing, List.append_nil] at extended

theorem note (h : Emits journal wire taken) (part : taken <+: wire)
    (plain : ¬ entry.BeginsBreak) (other : entry.event.topic ≠ .byte) :
    Emits (entry :: journal) wire taken :=
  show Emits ([entry] ++ journal) wire taken from
    h.silent part (.cons plain nofun) (.cons other (.nil _))

/-- A break begins the frame queued last. -/
theorem lineBreak (h : Emits journal wire taken) (begins : first.BeginsBreak) :
    Emits (first :: journal) (latestFrame journal) [] := by
  refine h.of_current (fun entries other earlier split within => ?_) (List.nil_prefix)
  cases entries with
  | nil =>
      obtain ⟨_, rfl⟩ := List.cons.inj split
      exact ⟨rfl, rfl⟩
  | cons newest entries =>
      obtain ⟨rfl, _⟩ := List.cons.inj split
      exact absurd (.inl begins) (within.goesOn _ List.mem_cons_self)

/-- Without the transmit alarm no frame is under way. -/
theorem unarmed {wire' taken' : List UInt8} (h : Emits journal wire taken)
    (disarmed : journal.alarm? .transmit = none) (part : taken' <+: wire') :
    Emits (entry :: journal) wire' taken' := by
  refine h.of_current (fun entries first earlier split within => ?_) part
  cases entries with
  | nil =>
      obtain ⟨_, rfl⟩ := List.cons.inj split
      exact absurd within.armed (by simp [disarmed])
  | cons newest entries =>
      have behind : journal = entries ++ first :: earlier := (List.cons.inj split).2
      have armed := within.rest.isSome_alarm?
      rw [← behind, disarmed] at armed
      contradiction

/-- Where the transmit alarm is disarmed, no frame is under way. -/
theorem disarm {wire' taken' : List UInt8} (h : Emits journal wire taken) (time : Micros)
    (part : taken' <+: wire') :
    Emits (⟨time, .order (.cancelAlarm .transmit)⟩ :: journal) wire' taken' := by
  refine h.of_current (fun entries first earlier split within => ?_) part
  cases entries with
  | nil =>
      obtain ⟨rfl, _⟩ := List.cons.inj split
      cases within.begins
  | cons newest entries =>
      obtain ⟨rfl, _⟩ := List.cons.inj split
      exact absurd (.inr rfl) (within.goesOn _ List.mem_cons_self)

end Emits

end Journal

namespace Scene

variable {d r : Nat} {s t : Scene d r} {entries : Journal}

/-- Of the frame on the wire so much is written as the transmitter has counted. -/
def Emits (s : Scene d r) : Prop :=
  s.journal.Emits s.engine.transmitter.wire s.engine.transmitter.taken

namespace Emits

theorem goesOn (h : s.Emits) (journal : t.journal = entries ++ s.journal)
    (goesOn : s.engine.transmitter.GoesOn entries t.engine.transmitter) : t.Emits := by
  have part : t.engine.transmitter.taken <+: t.engine.transmitter.wire :=
    Transmitter.taken_prefix _
  rw [Emits, journal, goesOn.wire, goesOn.taken]
  exact Journal.Emits.extend h goesOn.plain (by rwa [goesOn.taken, goesOn.wire] at part)

theorem silent (h : s.Emits) (journal : t.journal = entries ++ s.journal)
    (plain : entries.Plain) (lacks : Journal.Lacks .byte entries)
    (wire : t.engine.transmitter.wire = s.engine.transmitter.wire)
    (taken : t.engine.transmitter.taken = s.engine.transmitter.taken) : t.Emits := by
  rw [Emits, journal, wire, taken]
  exact Journal.Emits.silent h (Transmitter.taken_prefix _) plain lacks

theorem aside (h : s.Emits) (aside : Aside s t) : t.Emits := by
  obtain ⟨entries, journal, topics⟩ := aside.journal
  refine h.silent journal (Journal.Lacks.of_aside topics (by decide)).plain
    (.of_aside topics (by decide)) ?_ ?_ <;> rw [aside.transmitter]

/-- Whatever an alarm makes of the sequence, a break begins the frame queued last. -/
theorem pace (h : s.Emits) (sound : s.Sound) {now : Micros} {transmitter : Transmitter}
    {next : Option Micros} (later : Micros)
    (advances : s.engine.transmitter.Advances now entries transmitter next) :
    ((((s.note now (.transmitAlarm s.engine.transmitter.state)).withTransmitter
      transmitter).extend entries).order later (alarmOrder .transmit next)).Emits := by
  rcases advances.goesOn_or later with goesOn | ⟨_, _, ⟨time, rfl⟩, _, wire, taken, _⟩
  · refine h.goesOn ?_ goesOn
    rw [Transmitter.alarmEntries, List.cons_append, List.append_assoc]
    rfl
  · have alarmed : Journal.Emits
        (⟨now, .transmitAlarm s.engine.transmitter.state⟩ :: s.journal)
        s.engine.transmitter.wire s.engine.transmitter.taken :=
      Journal.Emits.note h (Transmitter.taken_prefix _) (by simp [Entry.BeginsBreak])
        (by simp [Event.topic])
    have broken : Journal.Emits (⟨time, .order (.setBreak true)⟩ ::
        ⟨now, .transmitAlarm s.engine.transmitter.state⟩ :: s.journal) transmitter.wire
        transmitter.taken := by
      have latest : Journal.latestFrame (⟨now, .transmitAlarm s.engine.transmitter.state⟩ ::
          s.journal) = transmitter.wire := by
        rw [wire, sound.latest]
        rfl
      rw [← latest, taken]
      exact alarmed.lineBreak rfl
    exact broken.note (Transmitter.taken_prefix _)
      (by cases next <;> simp [alarmOrder, Entry.BeginsBreak])
      (by cases next <;> simp [alarmOrder, Event.topic])

/-- A sequence that starts has not begun its first frame. -/
theorem start (h : s.Emits) (wired : s.Wired) (stopped : s.engine.running = false)
    (first second : Micros) : (s.start first second).Emits := by
  cases direction : s.engine.direction with
  | input =>
      rw [Scene.start_input first second direction]
      have cleared : (s.order first .clearReceive).Emits := h.aside (.note (by decide) first)
      have allowed : ((s.order first .clearReceive).order second (.allowReceive true)).Emits :=
        cleared.aside (.note (by decide) second)
      exact allowed
  | output =>
      rw [Scene.start_output first second direction]
      have disarmed : s.journal.alarm? .transmit = none :=
        wired.disarmed (by rw [Engine.sending, stopped, Bool.false_and])
      have read : Journal.Emits (⟨first, .clockRead⟩ :: s.journal) s.engine.transmitter.start.wire
          s.engine.transmitter.start.taken :=
        Journal.Emits.unarmed h disarmed (Transmitter.taken_prefix _)
      exact read.unarmed disarmed (Transmitter.taken_prefix _)

/-- A sequence that is stopped leaves its frame as it is. -/
theorem halt (h : s.Emits) (first second third : Micros) : (s.halt first second third).Emits := by
  cases direction : s.engine.direction with
  | input =>
      rw [Scene.halt_input first second third direction]
      have masked : (s.order first (.allowReceive false)).Emits := h.aside (.note (by decide) first)
      have reset : ((s.order first (.allowReceive false)).withReceiver
          s.engine.receiver.reset).Emits := masked.aside (.withReceiver _)
      have synced : (((s.order first (.allowReceive false)).withReceiver
          s.engine.receiver.reset).sync second).Emits := reset.aside (.sync second)
      exact synced
  | output =>
      rw [Scene.halt_output first second third direction]
      have masked : (s.order first (.allowTransmit false)).Emits :=
        h.aside (.note (by decide) first)
      have released : Journal.Emits (⟨second, .order (.setBreak false)⟩ ::
          ⟨first, .order (.allowTransmit false)⟩ :: s.journal) s.engine.transmitter.wire
          s.engine.transmitter.taken :=
        Journal.Emits.note masked (Transmitter.taken_prefix _) (by simp [Entry.BeginsBreak])
          (by simp [Event.topic])
      exact released.disarm third (Transmitter.taken_prefix _)

end Emits

end Scene

variable {d r : Nat} {kind : Step.Kind} {kinds : Step.Kind → Prop} {s t : Scene d r}

/-- Whatever happens to a link, of each frame of its sequences a front part is written. -/
theorem Step.emits (step : Step kind s t) (sound : s.Sound) (wired : s.Wired) (h : s.Emits) :
    t.Emits := by
  have disarmed (stopped : s.engine.running = false) : s.journal.alarm? .transmit = none :=
    wired.disarmed (by rw [Engine.sending, stopped, Bool.false_and])
  cases step with
  | takeDmx | takeRdm | flush | claim | release => exact h
  | requestStop => exact h
  | readClock time => exact h.aside (.note (by decide) time)
  | sample time status => exact h.aside (.note (by simp [Event.topic, Event.Topic.IsAside]) time)
  | @hear _ signal time receiver frame receiving heard =>
      have noted : s.Aside (s.note time (.heard signal)) :=
        .note (by simp [Event.topic, Event.Topic.IsAside]) time
      exact h.aside ((noted.trans (.withReceiver receiver)).trans (.publish time frame))
  | @timeOut _ time receiver frame later served =>
      have noted : s.Aside (s.note time .receiveAlarm) := .note (by decide) time
      exact h.aside (((noted.trans (.withReceiver receiver)).trans (.publish time frame)).trans
        (.watch later none))
  | sync time => exact h.aside (.sync time)
  | resume continues => exact h.goesOn rfl continues.goesOn
  | pace later _ advances => exact h.pace sound later advances
  | paceIdle time => exact Journal.Emits.disarm h time (Transmitter.taken_prefix _)
  | @queue _ frame _ time queued =>
      obtain ⟨_, timing, rfl⟩ := Transmitter.eq_of_queue queued
      have given : (s.withTransmitter
          { s.engine.transmitter with queued := some frame, timing }).Emits := h
      exact given.aside (.note (.inr (.inl rfl)) time)
  | configure configured =>
      obtain ⟨timing, configures⟩ := s.engine.transmitter.configure_ok _
      cases configures.symm.trans configured
      exact h
  | refuse time high =>
      exact h.aside (.note (by simp [Event.topic, Event.Topic.IsAside]) time)
  | turn driven time direction =>
      have turned : ({ s with engine := { s.engine with direction } } : Scene d r).Emits := h
      have pin : (Event.pin direction.pinLevel true).topic.IsAside := .inr (.inr rfl)
      exact (turned.aside (.note pin driven)).aside (.note (.inr (.inr rfl)) time)
  | start first second _ stopped => exact h.start wired stopped first second
  | halt first second third => exact h.halt first second third
  | setBreak time asserted stopped =>
      exact Journal.Emits.unarmed h (disarmed stopped) (Transmitter.taken_prefix _)
  | write time byte stopped =>
      exact Journal.Emits.unarmed h (disarmed stopped) (Transmitter.taken_prefix _)

theorem Steps.emits (steps : Steps kinds s t) (sound : s.Sound) (wired : s.Wired) (h : s.Emits) :
    t.Emits := by
  induction steps with
  | refl => exact h
  | tail steps step ih =>
      obtain ⟨_, _, step⟩ := step
      exact step.emits (Steps.sound steps sound) (Steps.wired steps wired) ih

end Dmx512
