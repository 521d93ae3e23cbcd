import Dmx512.Proofs.Link.Sound

/-!
# Frames go out whole

Between two breaks in a row of a sequencer that is left alone, exactly the frame
queued last before the first of them is written. What carries the proof is how
far the present frame has come: behind the last break so much of it is written
as the transmitter has counted, and a break begins only where that is all of it.

An alarm that finds the frame unfinished sets the next one, counts an overrun
and does nothing else.
-/

namespace Dmx512

def Entry.BeginsBreak (entry : Entry) : Prop := entry.event = .order (.setBreak true)

/-- A transmit alarm finds bytes of the frame still waiting. -/
def Entry.IsLate (entry : Entry) : Prop := entry.event = .transmitAlarm .data

instance (entry : Entry) : Decidable entry.BeginsBreak :=
  inferInstanceAs (Decidable (entry.event = .order (.setBreak true)))

instance (entry : Entry) : Decidable entry.IsLate :=
  inferInstanceAs (Decidable (entry.event = .transmitAlarm .data))

namespace Journal

/-- No entry begins a break. -/
def Plain (entries : Journal) : Prop := ∀ entry ∈ entries, ¬ entry.BeginsBreak

instance (entries : Journal) : Decidable entries.Plain :=
  inferInstanceAs (Decidable (∀ entry ∈ entries, ¬ entry.BeginsBreak))

/-- Behind `base`, exactly the frame queued last before the first of two breaks in a
row is written between them. -/
def WholeBetween (base new : Journal) : Prop :=
  ∀ (later : Journal) (second : Entry) (mid : Journal) (first : Entry) (earlier : Journal),
    new = later ++ second :: (mid ++ first :: earlier) →
    second.BeginsBreak → first.BeginsBreak → mid.Plain →
    written mid = latestFrame (earlier ++ base)

/-- Behind `base` and the last break, a front part of the frame queued last before it
is written. -/
def WholeSoFar (base new : Journal) : Prop :=
  ∀ (mid : Journal) (first : Entry) (earlier : Journal), new = mid ++ first :: earlier →
    first.BeginsBreak → mid.Plain → written mid <+: latestFrame (earlier ++ base)

/-- Every late alarm is directly followed by the setting of the next. -/
def Rearms (new : Journal) : Prop :=
  ∀ (later : Journal) (alarm : Entry) (earlier : Journal), new = later ++ alarm :: earlier →
    alarm.IsLate →
    ∃ later' time deadline, later = later' ++ [⟨time, .order (.setAlarm .transmit deadline)⟩]

def lateAlarms (journal : Journal) : Nat := journal.countP fun entry => entry.IsLate

end Journal

/-- Topics that are no part of the transmit sequence. -/
def Event.Topic.IsAside (topic : Event.Topic) : Prop :=
  topic = .reception ∨ topic = .queue ∨ topic = .other

instance (topic : Event.Topic) : Decidable topic.IsAside :=
  inferInstanceAs (Decidable (_ ∨ _ ∨ _))

namespace Journal

/-- Behind `base` whole frames were written. Behind the last break it is `taken`, and
`wire` was queued last before the break. -/
structure Framed (base new : Journal) (wire taken : List UInt8) : Prop where
  between : WholeBetween base new
  current : ∀ (mid : Journal) (first : Entry) (earlier : Journal), new = mid ++ first :: earlier →
    first.BeginsBreak → mid.Plain → written mid = taken ∧ wire = latestFrame (earlier ++ base)

variable {base new entries : Journal} {wire taken : List UInt8} {entry first : Entry}

theorem Lacks.plain (h : Lacks .lineBreak entries) : Plain entries :=
  fun entry mem begins => h entry mem (by rw [begins]; rfl)

theorem Lacks.timely (h : Lacks .alarm entries) : ∀ entry ∈ entries, ¬ entry.IsLate :=
  fun entry mem late => h entry mem (by rw [late]; rfl)

theorem Plain.cons (first : ¬ entry.BeginsBreak) (rest : Plain entries) :
    Plain (entry :: entries) :=
  List.forall_mem_cons.mpr ⟨first, rest⟩

theorem Plain.append {more : Journal} (first : Plain more) (rest : Plain entries) :
    Plain (more ++ entries) :=
  List.forall_mem_append.mpr ⟨first, rest⟩

namespace Framed

theorem nil (base : Journal) (wire taken : List UInt8) : Framed base [] wire taken where
  between := by simp [WholeBetween]
  current := by simp

theorem soFar (h : Framed base new wire taken) (part : taken <+: wire) : WholeSoFar base new := by
  intro mid first earlier split begins plain
  obtain ⟨written, same⟩ := h.current mid first earlier split begins plain
  rw [written, ← same]
  exact part

/-- An entry that begins no break belongs to the part behind the last one. -/
theorem cons (h : Framed base new wire taken) (plain : ¬ entry.BeginsBreak) :
    Framed base (entry :: new) wire (taken ++ written [entry]) where
  between := by
    intro later second mid first earlier split begins
    cases later with
    | nil => exact absurd ((List.cons.inj split).1 ▸ begins) plain
    | cons _ later =>
        exact h.between later second mid first earlier (List.cons.inj split).2 begins
  current := by
    intro mid first earlier split begins plain'
    cases mid with
    | nil => exact absurd ((List.cons.inj split).1 ▸ begins) plain
    | cons newest mid =>
        obtain ⟨rfl, behind⟩ := List.cons.inj split
        obtain ⟨before, same⟩ := h.current mid first earlier behind begins
          fun entry mem => plain' entry (List.mem_cons_of_mem _ mem)
        refine ⟨?_, same⟩
        rw [show entry :: mid = [entry] ++ mid from rfl, written_append, before]

theorem extend (h : Framed base new wire taken) (plain : Plain entries) :
    Framed base (entries ++ new) wire (taken ++ written entries) := by
  induction entries with
  | nil => simpa [written] using h
  | cons entry rest ih =>
      obtain ⟨here, others⟩ := List.forall_mem_cons.mp plain
      rw [show entry :: rest = [entry] ++ rest from rfl, written_append, ← List.append_assoc]
      exact (ih others).cons here

/-- A break that comes when the whole frame is taken closes the part behind the last
one, and opens another. -/
theorem lineBreak (h : Framed base new wire wire) (begins : first.BeginsBreak) :
    Framed base (first :: new) (latestFrame (new ++ base)) [] where
  between := by
    intro later second mid other earlier split begins' begins'' plain
    cases later with
    | nil =>
        obtain ⟨finished, same⟩ :=
          h.current mid other earlier (List.cons.inj split).2 begins'' plain
        rw [finished, same]
    | cons _ later =>
        exact h.between later second mid other earlier (List.cons.inj split).2 begins' begins''
          plain
  current := by
    intro mid other earlier split begins' plain
    cases mid with
    | nil =>
        obtain ⟨_, rfl⟩ := List.cons.inj split
        exact ⟨rfl, rfl⟩
    | cons newest mid =>
        exact absurd ((List.cons.inj split).1 ▸ begins) (plain newest List.mem_cons_self)

end Framed

theorem Rearms.nil : Rearms [] := by simp [Rearms]

theorem Rearms.of_timely (timely : ∀ entry ∈ entries, ¬ entry.IsLate) : Rearms entries := by
  intro later alarm earlier split late
  exact absurd late (timely alarm (split ▸ by simp))

theorem Rearms.append (h : Rearms new) (rest : Rearms entries) : Rearms (entries ++ new) := by
  intro later alarm earlier split late
  rcases List.append_eq_append_iff.mp split with ⟨front, rfl, behind⟩ | ⟨front, rfl, behind⟩
  · obtain ⟨later', time, deadline, rfl⟩ := h front alarm earlier behind late
    exact ⟨entries ++ later', time, deadline, (List.append_assoc ..).symm⟩
  · cases front with
    | nil =>
        obtain ⟨later', time, deadline, nothing⟩ := h [] alarm earlier behind.symm late
        simp at nothing
    | cons _ front =>
        obtain ⟨rfl, _⟩ := List.cons.inj behind
        exact rest later alarm front rfl late

theorem lateAlarms_append (entries new : Journal) :
    lateAlarms (entries ++ new) = lateAlarms entries + lateAlarms new :=
  List.countP_append

theorem lateAlarms_eq_zero (timely : ∀ entry ∈ entries, ¬ entry.IsLate) :
    lateAlarms entries = 0 := by
  rw [lateAlarms, List.countP_eq_zero]
  intro entry mem
  simpa using timely entry mem

theorem Lacks.of_aside (h : ∀ entry ∈ entries, entry.event.topic.IsAside) {topic : Event.Topic}
    (other : ¬ topic.IsAside) : Lacks topic entries :=
  fun entry mem same => other (same ▸ h entry mem)

end Journal

namespace Transmitter

/-- The bytes of the present frame that the interface has taken. -/
def taken (t : Transmitter) : List UInt8 :=
  match t.state with
  | .lineBreak | .markAfterBreak => []
  | .data => t.wire.take t.sent
  | .idle | .interPacket => t.wire

variable {t t' : Transmitter} {entries : Journal} {now : Micros} {next : Option Micros}

theorem taken_prefix (t : Transmitter) : t.taken <+: t.wire := by
  cases state : t.state <;> simp [taken, state, List.take_prefix]

theorem taken_eq_wire (between : t.state = .idle ∨ t.state = .interPacket) : t.taken = t.wire := by
  rcases between with state | state <;> simp [taken, state]

/-- What the entries of a part of the journal tell of the transmitter, where no break
is among them. -/
structure GoesOn (t : Transmitter) (entries : Journal) (t' : Transmitter) : Prop where
  plain : entries.Plain
  wire : t'.wire = t.wire
  taken : t'.taken = t.taken ++ Journal.written entries
  overruns : t'.overruns = t.overruns + UInt32.ofNat (Journal.lateAlarms entries)
  rearms : entries.Rearms

theorem GoesOn.of_timely (plain : entries.Plain) (timely : ∀ entry ∈ entries, ¬ entry.IsLate)
    (wire : t'.wire = t.wire) (taken : t'.taken = t.taken ++ Journal.written entries)
    (overruns : t'.overruns = t.overruns) : GoesOn t entries t' where
  plain := plain
  wire := wire
  taken := taken
  overruns := by
    rw [overruns, Journal.lateAlarms_eq_zero timely]
    exact (UInt32.add_zero _).symm
  rearms := .of_timely timely

theorem Continues.goesOn (h : t.Continues entries t') : GoesOn t entries t' := by
  refine .of_timely (h.lacks (by decide)).plain (h.lacks (by decide)).timely ?_ ?_ ?_
  · cases h <;> rfl
  · cases h with
    | whole time phase hands =>
        rw [Journal.written_cons (by simp [Event.topic]), hands.written]
        simp [taken, phase]
    | part phase short hands =>
        rw [hands.written]
        simp [taken, phase, List.take_add]
  · cases h <;> rfl

/-- The entries of an alarm: its service, what comes of it and the next alarm. -/
def alarmEntries (t : Transmitter) (now : Micros) (entries : Journal) (later : Micros)
    (next : Option Micros) : Journal :=
  ⟨later, .order (alarmOrder .transmit next)⟩ :: (entries ++ [⟨now, .transmitAlarm t.state⟩])

theorem written_alarmEntries (later : Micros) :
    Journal.written (t.alarmEntries now entries later next) = Journal.written entries := by
  rw [alarmEntries, Journal.written_cons (by cases next <;> simp [alarmOrder, Event.topic]),
    Journal.written_append]
  rfl

theorem plain_alarmEntries (later : Micros) (plain : entries.Plain) :
    (t.alarmEntries now entries later next).Plain :=
  .cons (by cases next <;> simp [alarmOrder, Entry.BeginsBreak])
    (plain.append (.cons (by simp [Entry.BeginsBreak]) nofun))

theorem timely_alarmEntries (later : Micros) (onTime : t.state ≠ .data)
    (timely : ∀ entry ∈ entries, ¬ entry.IsLate) :
    ∀ entry ∈ t.alarmEntries now entries later next, ¬ entry.IsLate := by
  simp only [alarmEntries, List.mem_cons, List.mem_append, List.not_mem_nil, or_false]
  rintro entry (rfl | mem | rfl)
  · simp [Entry.IsLate]
  · exact timely entry mem
  · simpa [Entry.IsLate] using onTime

/-- A late alarm counts an overrun, sets the next alarm and does nothing else. -/
theorem GoesOn.overrun (phase : t.state = .data) (later deadline : Micros) :
    GoesOn t (t.alarmEntries now [] later (some deadline)) t.overrun where
  plain := plain_alarmEntries later nofun
  wire := rfl
  taken := by
    rw [written_alarmEntries]
    exact (List.append_nil _).symm
  overruns := by
    rw [alarmEntries, phase]
    rfl
  rearms := by
    intro front alarm earlier split late
    cases front with
    | nil =>
        obtain ⟨rfl, _⟩ := List.cons.inj split
        cases late
    | cons rearm front =>
        obtain ⟨rfl, behind⟩ := List.cons.inj split
        cases front with
        | nil => exact ⟨[], later, deadline, rfl⟩
        | cons _ front => simp at behind

/-- An alarm lets the frame go on, or finds it finished and begins the next, unless it was
to be the last. -/
theorem Advances.goesOn_or (h : t.Advances now entries t' next) (later : Micros) :
    GoesOn t (t.alarmEntries now entries later next) t' ∨
      t.stopping = false ∧ t.taken = t.wire ∧
      (∃ time, entries = [⟨time, .order (.setBreak true)⟩]) ∧
      t.state ≠ .data ∧ t'.wire = t.next ∧ t'.taken = [] ∧ t'.overruns = t.overruns := by
  have onTime (phase : t.state ≠ .data) (plain : entries.Plain)
      (timely : ∀ entry ∈ entries, ¬ entry.IsLate) (wire : t'.wire = t.wire)
      (taken : t'.taken = t.taken ++ Journal.written entries)
      (overruns : t'.overruns = t.overruns) :
      GoesOn t (t.alarmEntries now entries later next) t' :=
    .of_timely (plain_alarmEntries later plain) (timely_alarmEntries later phase timely) wire
      ((written_alarmEntries later).symm ▸ taken) overruns
  cases h with
  | rest phase last =>
      refine .inl (onTime (by rcases phase with state | state <;> simp [state]) nofun nofun rfl ?_
        rfl)
      rw [taken_eq_wire phase]
      exact (List.append_nil _).symm
  | lineBreak time phase more begun =>
      obtain ⟨timing, begins⟩ := t.beginFrame_ok now
      cases begins.symm.trans begun
      exact .inr ⟨more, taken_eq_wire phase, ⟨time, rfl⟩,
        by rcases phase with state | state <;> simp [state], rfl, rfl, rfl⟩
  | mark time phase =>
      refine .inl (onTime (by simp [phase]) (.cons (by simp [Entry.BeginsBreak]) nofun)
        (by simp [Entry.IsLate]) rfl ?_ rfl)
      simp [taken, phase]
      rfl
  | whole phase hands =>
      refine .inl (onTime (by simp [phase]) (hands.lacks (by decide)).plain
        (hands.lacks (by decide)).timely rfl ?_ rfl)
      simp [taken, phase, hands.written]
  | part time phase short hands =>
      have lacks : Journal.Lacks .alarm (⟨time, .order (.allowTransmit true)⟩ :: _) :=
        .cons (by simp [Event.topic]) (hands.lacks (by decide))
      refine .inl (onTime (by simp [phase])
        (.cons (by simp [Entry.BeginsBreak]) (hands.lacks (by decide)).plain) lacks.timely rfl ?_
        rfl)
      rw [Journal.written_cons (by simp [Event.topic]), hands.written]
      simp [taken, phase]
  | overrun phase => exact .inl (.overrun phase later _)

end Transmitter

namespace Scene

variable {d r : Nat} {s m t t' : Scene d r} {new entries : Journal}

/-- A link went on without touching the transmit sequence. -/
structure Aside (s t : Scene d r) : Prop where
  journal : ∃ entries, t.journal = entries ++ s.journal ∧
    ∀ entry ∈ entries, entry.event.topic.IsAside
  transmitter : t.engine.transmitter = s.engine.transmitter

namespace Aside

theorem refl (s : Scene d r) : Aside s s := ⟨⟨[], rfl, nofun⟩, rfl⟩

theorem trans (first : Aside s m) (second : Aside m t) : Aside s t := by
  obtain ⟨entries, journal, topics⟩ := first.journal
  obtain ⟨more, journal', topics'⟩ := second.journal
  refine ⟨⟨more ++ entries, ?_, List.forall_mem_append.mpr ⟨topics', topics⟩⟩,
    second.transmitter.trans first.transmitter⟩
  rw [journal', journal, List.append_assoc]

theorem note {event : Event} (aside : event.topic.IsAside) (time : Micros) :
    Aside s (s.note time event) :=
  ⟨⟨[⟨time, event⟩], rfl, by simpa using aside⟩, rfl⟩

theorem withReceiver (receiver : Receiver) : Aside s (s.withReceiver receiver) :=
  ⟨⟨[], rfl, nofun⟩, rfl⟩

theorem publish (time : Micros) (frame : Option Frame) : Aside s (s.publish time frame) := by
  rcases frame with - | frame | frame
  · exact refl s
  · refine ⟨⟨[⟨time, .published (.dmx frame)⟩], rfl, ?_⟩, rfl⟩
    simp [Event.topic, Event.Topic.IsAside]
  · refine ⟨⟨[⟨time, .published (.rdm frame)⟩], rfl, ?_⟩, rfl⟩
    simp [Event.topic, Event.Topic.IsAside]

theorem watch (time : Micros) (watchdog : Option Micros) : Aside s (s.watch time watchdog) := by
  refine ⟨⟨[⟨time, .order (alarmOrder .receiveTimeout watchdog)⟩], rfl, ?_⟩, rfl⟩
  cases watchdog <;> simp [alarmOrder, Event.topic, Event.Topic.IsAside]

theorem sync (time : Micros) : Aside s (s.sync time) := by
  rw [Scene.sync]
  split
  · exact refl s
  · exact watch time _

end Aside

/-- What came of the transmit sequence from `s` to `t`, with the `new` entries. -/
structure Sends (s : Scene d r) (new : Journal) (t : Scene d r) : Prop where
  journal : t.journal = new ++ s.journal
  framed : Journal.Framed s.journal new t.engine.transmitter.wire t.engine.transmitter.taken
  overruns : t.engine.transmitter.overruns =
    s.engine.transmitter.overruns + UInt32.ofNat new.lateAlarms
  rearms : new.Rearms

namespace Sends

theorem refl (s : Scene d r) : Sends s [] s where
  journal := rfl
  framed := .nil _ _ _
  overruns := by simp [Journal.lateAlarms]
  rearms := .nil

theorem goesOn (h : Sends s new t) (journal : t'.journal = entries ++ t.journal)
    (goesOn : t.engine.transmitter.GoesOn entries t'.engine.transmitter) :
    Sends s (entries ++ new) t' where
  journal := by rw [journal, h.journal, List.append_assoc]
  framed := by
    rw [goesOn.wire, goesOn.taken]
    exact h.framed.extend goesOn.plain
  overruns := by
    rw [goesOn.overruns, h.overruns, Journal.lateAlarms_append, Nat.add_comm entries.lateAlarms,
      UInt32.ofNat_add, UInt32.add_assoc]
  rearms := h.rearms.append goesOn.rearms

theorem aside (h : Sends s new t) (aside : Aside t t') : ∃ new', Sends s new' t' := by
  obtain ⟨entries, journal, topics⟩ := aside.journal
  have lacks {topic : Event.Topic} (other : ¬ topic.IsAside) : Journal.Lacks topic entries :=
    .of_aside topics other
  refine ⟨entries ++ new, h.goesOn journal (.of_timely (lacks (by decide)).plain
    (lacks (by decide)).timely ?_ ?_ ?_)⟩
  · rw [aside.transmitter]
  · rw [aside.transmitter, Journal.written_eq_nil (lacks (by decide)), List.append_nil]
  · rw [aside.transmitter]

/-- The transmitter is given something for later. -/
theorem withTransmitter (h : Sends s new t) {transmitter : Transmitter}
    (wire : transmitter.wire = t.engine.transmitter.wire)
    (taken : transmitter.taken = t.engine.transmitter.taken)
    (overruns : transmitter.overruns = t.engine.transmitter.overruns) :
    Sends s new (t.withTransmitter transmitter) := by
  have goesOn : t.engine.transmitter.GoesOn [] (t.withTransmitter transmitter).engine.transmitter :=
    .of_timely nofun nofun wire (taken.trans (List.append_nil _).symm) overruns
  exact h.goesOn rfl goesOn

/-- The next frame begins, and is the one queued last. -/
theorem lineBreak (h : Sends s new t) (sound : t.Sound) {now time later : Micros}
    {next : Option Micros}
    (journal : t'.journal = t.engine.transmitter.alarmEntries now [⟨time, .order (.setBreak true)⟩]
      later next ++ t.journal)
    (onTime : t.engine.transmitter.state ≠ .data)
    (finished : t.engine.transmitter.taken = t.engine.transmitter.wire)
    (wire : t'.engine.transmitter.wire = t.engine.transmitter.next)
    (taken : t'.engine.transmitter.taken = [])
    (overruns : t'.engine.transmitter.overruns = t.engine.transmitter.overruns) :
    Sends s (t.engine.transmitter.alarmEntries now [⟨time, .order (.setBreak true)⟩] later next ++
      new) t' := by
  let alarm : Entry := ⟨now, .transmitAlarm t.engine.transmitter.state⟩
  let first : Entry := ⟨time, .order (.setBreak true)⟩
  let rearm : Entry := ⟨later, .order (alarmOrder .transmit next)⟩
  have timely : ∀ entry ∈ t.engine.transmitter.alarmEntries now [first] later next,
      ¬ entry.IsLate :=
    Transmitter.timely_alarmEntries later onTime (by simp [first, Entry.IsLate])
  refine ⟨by rw [journal, h.journal, List.append_assoc], ?_, ?_,
    h.rearms.append (.of_timely timely)⟩
  · have alarmed : Journal.Framed s.journal (alarm :: new) t.engine.transmitter.wire
        t.engine.transmitter.wire := by
      have plain : ¬ alarm.BeginsBreak := by simp [alarm, Entry.BeginsBreak]
      simpa [finished, Journal.written, alarm] using h.framed.cons plain
    have broken : Journal.Framed s.journal (first :: alarm :: new)
        (Journal.latestFrame (alarm :: new ++ s.journal)) [] := alarmed.lineBreak rfl
    have plain : ¬ rearm.BeginsBreak := by
      cases next <;> simp [rearm, alarmOrder, Entry.BeginsBreak]
    have rearmed := broken.cons plain
    rw [Journal.written_cons (by cases next <;> simp [rearm, alarmOrder, Event.topic])] at rearmed
    rw [wire, taken, sound.latest, h.journal]
    exact rearmed
  · rw [overruns, h.overruns, Journal.lateAlarms_append, Journal.lateAlarms_eq_zero timely,
      Nat.zero_add]

/-- Whatever an alarm makes of the sequence, a break comes only behind a whole frame. -/
theorem pace (h : Sends s new t) (sound : t.Sound) {now : Micros} {transmitter : Transmitter}
    {next : Option Micros} (later : Micros)
    (advances : t.engine.transmitter.Advances now entries transmitter next) :
    ∃ new', Sends s new'
      ((((t.note now (.transmitAlarm t.engine.transmitter.state)).withTransmitter
        transmitter).extend entries).order later (alarmOrder .transmit next)) := by
  rcases advances.goesOn_or later with
    goesOn | ⟨_, finished, ⟨time, rfl⟩, onTime, wire, taken, overruns⟩
  · refine ⟨_, h.goesOn ?_ goesOn⟩
    rw [Transmitter.alarmEntries, List.cons_append, List.append_assoc]
    rfl
  · exact ⟨_, h.lineBreak sound rfl onTime finished wire taken overruns⟩

end Sends

end Scene

variable {d r : Nat} {kind : Step.Kind} {kinds : Step.Kind → Prop} {s t t' : Scene d r}
variable {new : Journal}

/-- Interrupts leave the transmit sequence alone, or let the frame on the wire go on, or serve
the alarm of a link that sends. -/
theorem Step.aside_or (step : Step .interrupt s t) :
    s.Aside t ∨
    (∃ entries transmitter, s.engine.transmitter.Continues entries transmitter ∧
      t = (s.withTransmitter transmitter).extend entries) ∨
    ∃ now entries transmitter next later, s.engine.sending = true ∧
      s.engine.transmitter.Advances now entries transmitter next ∧
      t = (((s.note now (.transmitAlarm s.engine.transmitter.state)).withTransmitter
        transmitter).extend entries).order later (alarmOrder .transmit next) := by
  cases step with
  | readClock time | paceIdle time => exact .inl (.note (by decide) time)
  | sample time status => exact .inl (.note (by simp [Event.topic, Event.Topic.IsAside]) time)
  | @hear _ signal time receiver frame =>
      have noted : s.Aside (s.note time (.heard signal)) :=
        .note (by simp [Event.topic, Event.Topic.IsAside]) time
      exact .inl ((noted.trans (.withReceiver receiver)).trans (.publish time frame))
  | @timeOut _ time receiver frame later =>
      have noted : s.Aside (s.note time .receiveAlarm) := .note (by decide) time
      exact .inl (((noted.trans (.withReceiver receiver)).trans (.publish time frame)).trans
        (.watch later none))
  | sync time => exact .inl (.sync time)
  | resume continues => exact .inr (.inl ⟨_, _, continues, rfl⟩)
  | pace later sending advances => exact .inr (.inr ⟨_, _, _, _, later, sending, advances, rfl⟩)

/-- Whatever happens beside control, whole frames go out. -/
theorem Step.sends (step : Step kind t t') (calm : kind.IsCalm) (sound : t.Sound)
    (h : s.Sends new t) : ∃ new', s.Sends new' t' := by
  rcases calm with rfl | other
  · rcases step.aside_or with aside | ⟨entries, transmitter, continues, rfl⟩ |
      ⟨now, entries, transmitter, next, later, _, advances, rfl⟩
    · exact h.aside aside
    · exact ⟨_, h.goesOn rfl continues.goesOn⟩
    · exact h.pace sound later advances
  cases step with
  | readClock | sample | hear | timeOut | sync | resume | pace | paceIdle | claim | release | refuse
  | turn | requestStop | start | halt | setBreak | write => simp at other
  | @queue _ frame _ time queued =>
      obtain ⟨_, timing, rfl⟩ := Transmitter.eq_of_queue queued
      have aside : (Event.queued frame).topic.IsAside := .inr (.inl rfl)
      have given : s.Sends new (t.withTransmitter
          { t.engine.transmitter with queued := some frame, timing }) :=
        h.withTransmitter rfl rfl rfl
      exact given.aside (.note aside time)
  | configure configured =>
      obtain ⟨timing, configures⟩ := t.engine.transmitter.configure_ok _
      cases configures.symm.trans configured
      exact ⟨new, h.withTransmitter rfl rfl rfl⟩
  | takeDmx | takeRdm | flush => exact ⟨new, h.journal, h.framed, h.overruns, h.rearms⟩

/-- What has gone out in whole frames goes on so while the sequencer is left alone. -/
theorem Steps.goesOn_sends (steps : Steps kinds t t') (calm : ∀ kind, kinds kind → kind.IsCalm)
    (sound : t.Sound) (h : s.Sends new t) : ∃ new', s.Sends new' t' := by
  induction steps with
  | refl => exact ⟨new, h⟩
  | tail steps step ih =>
      obtain ⟨kind, within, step⟩ := step
      obtain ⟨new', sends⟩ := ih
      exact step.sends (calm kind within) (Steps.sound steps sound) sends

/-- While a sequencer is left alone, whole frames go out. -/
theorem Steps.sends (steps : Steps kinds s t) (calm : ∀ kind, kinds kind → kind.IsCalm)
    (sound : s.Sound) : ∃ new, s.Sends new t :=
  steps.goesOn_sends calm sound (.refl s)

end Dmx512
