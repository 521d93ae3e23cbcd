import Dmx512.Proofs.Link.Framing
import Dmx512.Proofs.Link.Turning

/-!
# What sending by hand makes of a link

An RDM frame is sent by the foreground itself, on a line that it has taken for
that: output, with its sequencer stopped. Relations say what this makes of a link,
byte by byte, with the interrupts that are served on the way. Where every wait
ended in time, exactly the bytes of the frame were written, and the last thing
that happened is a look at the interface that found nothing left in it.

Unless a sequencer sends, nothing else is put on the line meanwhile.
-/

namespace Dmx512

open Standard
open Step.Kind (IsManual IsSteering)

section Quiet

variable {d r : Nat} {s m t : Scene d r}

/-- What is no part of the transmit sequence puts nothing on the line. -/
theorem Journal.Silent.of_aside {entries : Journal}
    (topics : ∀ entry ∈ entries, entry.event.topic.IsAside) : entries.Silent :=
  ⟨.of_aside topics (by decide), .of_aside topics (by decide)⟩

/-- Unless a sequencer sends, interrupts leave the transmit sequence alone. -/
theorem Step.aside (step : Step .interrupt s t) (wired : s.Wired)
    (quiet : s.engine.sending = false) : s.Aside t := by
  rcases step.aside_or with aside | ⟨_, _, continues, _⟩ | ⟨_, _, _, _, _, sending, _⟩
  · exact aside
  · have phase : s.engine.transmitter.state = .data := by cases continues <;> assumption
    rw [wired.sending_of_data phase] at quiet
    contradiction
  · rw [sending] at quiet
    contradiction

namespace Scene

def StaysSilent (s t : Scene d r) : Prop :=
  ∃ new : Journal, t.journal = new ++ s.journal ∧ new.Silent

namespace StaysSilent

theorem refl (s : Scene d r) : StaysSilent s s := ⟨[], rfl, .nil⟩

theorem trans (first : StaysSilent s m) (second : StaysSilent m t) : StaysSilent s t := by
  obtain ⟨new, journal, silent⟩ := first
  obtain ⟨more, journal', silent'⟩ := second
  refine ⟨more ++ new, ?_, silent'.append silent⟩
  rw [journal', journal, List.append_assoc]

theorem of_aside (h : s.Aside t) : StaysSilent s t := by
  obtain ⟨entries, journal, topics⟩ := h.journal
  exact ⟨entries, journal, .of_aside topics⟩

theorem written (h : StaysSilent s t) : t.journal.written = s.journal.written := by
  obtain ⟨new, journal, silent⟩ := h
  rw [journal, Journal.written_append, silent.written, List.append_nil]

end StaysSilent

def Carries (bytes : List UInt8) (withBreak : Bool) (done : Prop) (s t : Scene d r) : Prop :=
  ∃ new : Journal, t.journal = new ++ s.journal ∧ new.Carries bytes withBreak done

namespace Carries

variable {bytes : List UInt8} {withBreak : Bool} {done : Prop}

theorem of_silent (h : StaysSilent s t) (undone : done → bytes = []) :
    s.Carries bytes false done t := by
  obtain ⟨new, journal, silent⟩ := h
  exact ⟨new, journal, .of_silent silent undone⟩

theorem ahead (first : StaysSilent s m) (h : m.Carries bytes withBreak done t) :
    s.Carries bytes withBreak done t := by
  obtain ⟨before, journal, silent⟩ := first
  obtain ⟨new, journal', carries⟩ := h
  exact ⟨new ++ before, by rw [journal', journal, List.append_assoc], carries.ahead silent⟩

theorem behind (h : s.Carries bytes withBreak done m) (last : StaysSilent m t) :
    s.Carries bytes withBreak done t := by
  obtain ⟨new, journal, carries⟩ := h
  obtain ⟨after, journal', silent⟩ := last
  exact ⟨after ++ new, by rw [journal', journal, List.append_assoc], carries.behind silent⟩

theorem written (h : s.Carries bytes withBreak done t) (is : done) :
    t.journal.written = s.journal.written ++ bytes := by
  obtain ⟨new, journal, carries⟩ := h
  rw [journal, Journal.written_append, carries.whole is]

end Carries

/-- Unless a sequencer sends, a line stays silent while the foreground waits. -/
theorem Waits.silent (waits : s.Waits t) (wired : s.Wired) (quiet : s.engine.sending = false) :
    s.StaysSilent t := by
  induction waits with
  | refl => exact .refl s
  | tail waits step ih =>
      obtain ⟨_, rfl, step⟩ := step
      have quiet' := (sending_of_standing (Steps.standing_eq waits nofun)).trans quiet
      exact ih.trans (.of_aside (step.aside (Steps.wired waits wired) quiet'))

theorem silent_start (first second : Micros) : s.StaysSilent (s.start first second) := by
  cases direction : s.engine.direction with
  | input =>
      rw [start_input _ _ direction]
      let entries : Journal :=
        [⟨second, .order (.allowReceive true)⟩, ⟨first, .order .clearReceive⟩]
      exact ⟨entries, rfl, .of_aside (by simp [entries, Event.topic, Event.Topic.IsAside])⟩
  | output =>
      rw [start_output _ _ direction]
      let entries : Journal :=
        [⟨second, .order (.setAlarm .transmit (first + startDelay))⟩, ⟨first, .clockRead⟩]
      exact ⟨entries, rfl, .of_aside (by simp [entries, Event.topic, Event.Topic.IsAside])⟩

/-- The sequencer of the input is stopped in silence. -/
theorem silent_halt (input : s.engine.direction = .input) (first second third : Micros) :
    s.StaysSilent (s.halt first second third) := by
  rw [halt_input _ _ _ input]
  have masked : s.Aside (s.order first (.allowReceive false)) := .note (by decide) first
  obtain ⟨new, journal, silent⟩ := StaysSilent.of_aside
    ((masked.trans (.withReceiver s.engine.receiver.reset)).trans (.sync second))
  exact ⟨new, journal, silent⟩

theorem Quiets.silent (h : s.Quiets t) (quiet : s.engine.sending = false) : s.StaysSilent t := by
  cases h with
  | still => exact .refl s
  | stops running stops =>
      cases stops with
      | input input => exact silent_halt input _ _ _
      | output output => simp [Engine.sending, running, output] at quiet

theorem Turns.silent {target : Direction} {enable : Bool} (h : s.Turns target enable t) :
    s.StaysSilent t := by
  obtain ⟨driven, time, first, second⟩ := h
  have turned : s.StaysSilent (s.turn driven time target) :=
    ⟨[⟨time, .turned target⟩, ⟨driven, .pin target.pinLevel true⟩], rfl,
      .of_aside (by simp [Event.topic, Event.Topic.IsAside])⟩
  cases enable with
  | true => exact turned.trans (silent_start first second)
  | false => exact turned

/-- Unless a sequencer sends, the line stays silent on the way to another direction. -/
theorem Switches.silent {target : Direction} {enable : Bool} {outcome : Outcome Unit}
    (h : s.Switches target enable outcome t) (quiet : s.engine.sending = false) :
    s.StaysSilent t := by
  cases h with
  | keeps => exact .refl s
  | starts => exact silent_start _ _
  | stops _ running _ stops => exact (Quiets.stops running stops).silent quiet
  | refused _ quiets time =>
      exact (quiets.silent quiet).trans
        (.of_aside (.note (by simp [Event.topic, Event.Topic.IsAside]) time))
  | turns _ quiets turns => exact (quiets.silent quiet).trans turns.silent

end Scene

end Quiet

namespace Scene

variable {d r : Nat} {s m t : Scene d r}

/-- The line is taken for a frame: it is output, and its sequencer is stopped. -/
structure Taken (s : Scene d r) : Prop where
  stopped : s.engine.running = false
  output : s.engine.direction = .output

namespace Taken

theorem of_standing (h : s.Taken) (standing : t.standing = s.standing) : t.Taken := by
  obtain ⟨direction, running, _⟩ := standing_iff.mp standing
  exact ⟨running.trans h.stopped, direction.trans h.output⟩

theorem waits (h : s.Taken) (waits : s.Waits t) : t.Taken :=
  h.of_standing (waits.standing_eq nofun)

theorem quiet (h : s.Taken) : s.engine.sending = false := by
  rw [Engine.sending, h.stopped, Bool.false_and]

end Taken

/-- A break and the mark behind it, each held for its time. -/
inductive Breaks (s : Scene d r) : Scene d r → Prop where
  | intro {m t : Scene d r} (first second : Micros)
      (breaks : WaitsFor rdmBreak (s.order first (.setBreak true)) m)
      (marks : WaitsFor rdmMark (m.order second (.setBreak false)) t) : Breaks s t

/-- Bytes are handed to the interface one after the other, each behind a wait for
room; then the foreground waits until the interface is empty. `false` stands for
a wait that took too long. -/
inductive Writes : List UInt8 → Bool → Scene d r → Scene d r → Prop where
  | done {s m : Scene d r} {status : Line.Status} (waits : s.Waits m) (time : Micros)
      (idle : status.txIdle = true) : Writes [] true s (m.note time (.sampled status))
  | late {bytes : List UInt8} {s t : Scene d r} (waits : s.Waits t) : Writes bytes false s t
  | byte {byte : UInt8} {rest : List UInt8} {finished : Bool} {s m t : Scene d r}
      (waits : s.Waits m) (time : Micros)
      (later : Writes rest finished (m.order time (.write byte)) t) :
      Writes (byte :: rest) finished s t

/-- A frame on a line that is taken, behind a break where one is wanted. -/
inductive Frames (bytes : List UInt8) : Bool → Bool → Scene d r → Scene d r → Prop where
  | bare {finished : Bool} {s t : Scene d r} (writes : Writes bytes finished s t) :
      Frames bytes false finished s t
  | broken {finished : Bool} {s m t : Scene d r} (breaks : s.Breaks m)
      (writes : Writes bytes finished m t) : Frames bytes true finished s t

namespace Breaks

section

variable (h : s.Breaks t) (taken : s.Taken)
include h taken

theorem steps : Steps IsManual s t := by
  obtain ⟨first, second, ⟨breaks, _⟩, ⟨marks, _⟩⟩ := h
  have taken' := Taken.waits (s := s.order first (.setBreak true)) ⟨taken.1, taken.2⟩ breaks
  have direct : IsManual .direct := .inr rfl
  have asserts := Steps.single (.setBreak first true taken.1 taken.2) direct
  have releases := Steps.single (.setBreak second false taken'.1 taken'.2) direct
  exact ((asserts.trans (breaks.mono Waits.manual)).trans releases).trans (marks.mono Waits.manual)

/-- The break that is put on the line is taken off again. -/
theorem keeps (released : s.journal.breakAsserted = false) : s.Keeps t := by
  have older := (h.steps taken).journal_suffix
  obtain ⟨first, second, ⟨breaks, _⟩, ⟨marks, _⟩⟩ := h
  have before := Steps.keeps breaks Waits.calm
  have behind := Steps.keeps marks Waits.calm
  obtain ⟨_, running, _⟩ := standing_iff.mp before.standing
  refine ⟨behind.standing.trans before.standing, behind.stopping.trans before.stopping,
    fun stopped => ?_, older⟩
  exact (behind.lineBreak (running.trans stopped)).trans released.symm

/-- The line is silent while the break is held, and while the mark is. -/
theorem framed (wired : s.Wired) :
    ∃ new : Journal, t.journal = new ++ s.journal ∧ new.BreakFramed 176 68 ∧ new.written = [] := by
  obtain ⟨first, second, ⟨breaks, broken⟩, ⟨marks, marked⟩⟩ := h
  have wired' := wired.setBreak taken.1 taken.2 first true
  have taken' := Taken.waits (s := s.order first (.setBreak true)) ⟨taken.1, taken.2⟩ breaks
  have wired'' := (Steps.wired breaks wired').setBreak taken'.1 taken'.2 second false
  obtain ⟨held, journal, silent⟩ := breaks.silent wired' taken.quiet
  obtain ⟨after, journal', silent'⟩ := marks.silent wired'' taken'.quiet
  obtain ⟨held', journal₁, lasts⟩ := broken (by decide)
  obtain ⟨after', journal₂, lasts'⟩ := marked (by decide)
  obtain rfl := List.append_cancel_right (journal.symm.trans journal₁)
  obtain rfl := List.append_cancel_right (journal'.symm.trans journal₂)
  have longer := Journal.duration_add_le_append held [⟨first, .order (.setBreak true)⟩]
  have longer' := Journal.duration_add_le_append after [⟨second, .order (.setBreak false)⟩]
  refine ⟨after ++ ⟨second, .order (.setBreak false)⟩ ::
    (held ++ [⟨first, .order (.setBreak true)⟩]), ?_, ?_, ?_⟩
  · rw [journal']
    refine (congrArg (after ++ _ :: ·) journal).trans ?_
    simp [order, note]
  · change Journal.BreakFramed 176 68 ([] ++ _)
    refine .intro .nil silent silent' (.nil _) ?_ ?_
    · refine Nat.le_trans (Nat.le_trans lasts (Nat.le_of_add_right_le longer)) ?_
      exact Journal.duration_le_append_left [⟨second, .order (.setBreak false)⟩] _
    · exact Nat.le_trans lasts' (Nat.le_of_add_right_le longer')
  · rw [Journal.written_append, Journal.written_cons (by simp [Event.topic]),
      Journal.written_append, silent.written, silent'.written]
    rfl

end

end Breaks

namespace Writes

variable {bytes : List UInt8} {finished : Bool}

theorem keeps (h : Writes bytes finished s t) : s.Keeps t := by
  induction h with
  | done waits time => exact (Steps.keeps waits Waits.calm).trans (.note (by trivial) time)
  | late waits => exact Steps.keeps waits Waits.calm
  | byte waits time _ ih =>
      exact ((Steps.keeps waits Waits.calm).trans (.note (by trivial) time)).trans ih

theorem steps (h : Writes bytes finished s t) (taken : s.Taken) : Steps IsManual s t := by
  induction h with
  | done waits time => exact (waits.mono Waits.manual).snoc (.sample _ _) (.inl rfl)
  | late waits => exact waits.mono Waits.manual
  | @byte byte _ _ _ _ _ waits time _ ih =>
      have taken' := taken.waits waits
      have writes := Step.write time byte taken'.1 taken'.2
      exact ((waits.mono Waits.manual).snoc writes (.inr rfl)).trans (ih ⟨taken'.1, taken'.2⟩)

/-- A front part of the bytes is put on the line, all of them where every wait ended in time,
and no break. -/
theorem carries (h : Writes bytes finished s t) (taken : s.Taken) (wired : s.Wired) :
    s.Carries bytes false (finished = true) t := by
  induction h with
  | @done s m status waits time =>
      have looks : m.StaysSilent (m.note time (.sampled status)) :=
        .of_aside (.note (by simp [Event.topic, Event.Topic.IsAside]) time)
      exact .of_silent ((waits.silent wired taken.quiet).trans looks) fun _ => rfl
  | late waits => exact .of_silent (waits.silent wired taken.quiet) (by simp)
  | @byte byte rest _ s m t waits time _ ih =>
      have taken' := taken.waits waits
      obtain ⟨before, journal, silent⟩ := waits.silent wired taken.quiet
      have wired' : m.Wired := Steps.wired waits wired
      obtain ⟨new, journal', carries⟩ := ih ⟨taken'.1, taken'.2⟩ wired'
      refine ⟨new ++ ⟨time, .order (.write byte)⟩ :: before, ?_, carries.write time byte silent⟩
      rw [journal', List.append_assoc]
      exact congrArg (new ++ _ :: ·) journal

/-- Where every wait ended in time, the interface was found empty in the end. -/
theorem drained (h : Writes bytes finished s t) (done : finished = true) :
    ∃ m time status, t = Scene.note m time (.sampled status) ∧ status.txIdle = true ∧
      s.journal <:+ m.journal := by
  induction h with
  | done waits time idle => exact ⟨_, time, _, rfl, idle, Steps.journal_suffix waits⟩
  | late => contradiction
  | byte waits _ _ ih =>
      obtain ⟨m, time, status, same, idle, older⟩ := ih done
      have waited := (Steps.journal_suffix waits).trans ((List.suffix_cons _ _).trans older)
      exact ⟨m, time, status, same, idle, waited⟩

end Writes

namespace Frames

variable {bytes : List UInt8} {withBreak finished : Bool}

theorem steps (h : Frames bytes withBreak finished s t) (taken : s.Taken) :
    Steps IsManual s t := by
  cases h with
  | bare writes => exact writes.steps taken
  | broken breaks writes =>
      have breaks' := breaks.steps taken
      have taken' := taken.of_standing (breaks'.standing_eq (by simp [IsManual]))
      exact breaks'.trans (writes.steps taken')

theorem keeps (h : Frames bytes withBreak finished s t) (taken : s.Taken)
    (released : s.journal.breakAsserted = false) : s.Keeps t := by
  cases h with
  | bare writes => exact writes.keeps
  | broken breaks writes => exact (breaks.keeps taken released).trans writes.keeps

/-- A front part of the bytes is put on the line, all of them where every wait ended in time,
behind a break where one is wanted. -/
theorem carries (h : Frames bytes withBreak finished s t) (taken : s.Taken)
    (released : s.journal.breakAsserted = false) (wired : s.Wired) :
    s.Carries bytes withBreak (finished = true) t := by
  cases h with
  | bare writes => exact writes.carries taken wired
  | broken breaks writes =>
      have taken' := taken.of_standing (breaks.keeps taken released).standing
      obtain ⟨before, journal, framed, unwritten⟩ := breaks.framed taken wired
      obtain ⟨new, journal', carries⟩ :=
        writes.carries taken' ((breaks.steps taken).wired wired)
      refine ⟨new ++ before, ?_, carries.frame framed unwritten⟩
      rw [journal', journal, List.append_assoc]

theorem drained (h : Frames bytes withBreak true s t) (taken : s.Taken) :
    ∃ m time status, t = Scene.note m time (.sampled status) ∧ status.txIdle = true ∧
      s.journal <:+ m.journal := by
  cases h with
  | bare writes => exact writes.drained rfl
  | broken breaks writes =>
      obtain ⟨m, time, status, same, idle, older⟩ := writes.drained rfl
      exact ⟨m, time, status, same, idle, (breaks.steps taken).journal_suffix.trans older⟩

end Frames

/-- The line is taken, a frame is sent on it, and the line is handed back to the
receiver, unless the pin refuses to take it or to hand it back. -/
inductive Transmits (bytes : List UInt8) (withBreak : Bool) (s : Scene d r) :
    Outcome Unit → Scene d r → Prop where
  | refused {t : Scene d r} {refusal : Refusal}
      (takes : s.Switches .output false (.error refusal) t) :
      Transmits bytes withBreak s (.error refusal) t
  | kept {m u t : Scene d r} {finished : Bool} {refusal : Refusal}
      (takes : s.Switches .output false (.ok ()) m) (frames : Frames bytes withBreak finished m u)
      (returns : u.Switches .input true (.error refusal) t) :
      Transmits bytes withBreak s (.error refusal) t
  | returned {m u t : Scene d r} {finished : Bool} (takes : s.Switches .output false (.ok ()) m)
      (frames : Frames bytes withBreak finished m u) (returns : u.Switches .input true (.ok ()) t) :
      Transmits bytes withBreak s (if finished then .ok () else .error (.line .timeout)) t

namespace Transmits

variable {bytes : List UInt8} {withBreak : Bool} {outcome : Outcome Unit}

/-- A line that was switched to output for a frame is taken. -/
theorem taken (takes : s.Switches .output false (.ok ()) m) : m.Taken := by
  obtain ⟨output, stopped, _⟩ := standing_iff.mp takes.done
  exact ⟨stopped, output⟩

/-- What was sent on a line that was taken leaves it steady, and its station attached. -/
theorem framed {u : Scene d r} {finished : Bool} (takes : s.Switches .output false (.ok ()) m)
    (frames : Frames bytes withBreak finished m u) (steady : s.Steady)
    (attached : s.engine.attached = true) :
    Steps IsSteering s u ∧ u.Steady ∧ u.engine.attached = true := by
  have steady' := takes.steady' steady attached
  have steps := frames.steps (taken takes)
  have keeps := frames.keeps (taken takes) (steady'.settled.released (taken takes).stopped)
  have attached' := takes.attached.trans attached
  refine ⟨(takes.steps steady attached).trans (steps.mono fun _ => IsManual.steering),
    ⟨steps.sound steady'.sound, steps.wired steady'.wired, keeps.settled steady'.settled⟩, ?_⟩
  exact (standing_iff.mp keeps.standing).2.2.trans attached'

section

variable (h : s.Transmits bytes withBreak outcome t) (steady : s.Steady)
  (present : s.engine.attached = true)
include h steady present

theorem attached : t.engine.attached = true := by
  cases h with
  | refused takes => exact takes.attached.trans present
  | kept takes frames returns | returned takes frames returns =>
      obtain ⟨_, _, attached'⟩ := framed takes frames steady present
      exact returns.attached.trans attached'

theorem steps : Steps IsSteering s t := by
  cases h with
  | refused takes => exact takes.steps steady present
  | kept takes frames returns | returned takes frames returns =>
      obtain ⟨steps, steady', attached'⟩ := framed takes frames steady present
      exact steps.trans (returns.steps steady' attached')

theorem settled : t.Settled := by
  cases h with
  | refused takes => exact takes.settled steady present
  | kept takes frames returns | returned takes frames returns =>
      obtain ⟨_, steady', attached'⟩ := framed takes frames steady present
      exact returns.settled steady' attached'

end

end Transmits

/-- Interrupts are served until `spacing` has passed since the end of the latest RDM frame
that the link knew of. -/
structure Spaces (spacing : Micros) (s t : Scene d r) : Prop where
  waits : s.Waits t
  spaced : spacing.toNat ≤ 2147483648 →
    ∃ waited : Journal, t.journal = waited ++ s.journal ∧
      ∀ (since : Journal) (ending : Entry) (earlier : Journal),
        s.journal = since ++ ending :: earlier →
        ending.time = s.engine.receiver.counters.rdmReceiveEnd →
        spacing.toNat ≤ Journal.duration (waited ++ since ++ [ending])

/-- What an attempt to send a frame makes of a link: nothing where a sequencer streams
or the frame is malformed, and otherwise it is sent behind a wait for the spacing. -/
inductive Delivers (frame : Except MessageError (List UInt8)) (withBreak : Bool)
    (spacing : Micros) (s : Scene d r) : Outcome Unit → Scene d r → Prop where
  | streams (sending : s.engine.sending = true) :
      Delivers frame withBreak spacing s (.error (.line .streaming)) s
  | malformed {defect : MessageError} (quiet : s.engine.sending = false)
      (wrong : frame = .error defect) :
      Delivers frame withBreak spacing s (.error (.message defect)) s
  | sends {bytes : List UInt8} {outcome : Outcome Unit} {m t : Scene d r}
      (quiet : s.engine.sending = false) (right : frame = .ok bytes) (spaces : s.Spaces spacing m)
      (transmits : m.Transmits bytes withBreak outcome t) :
      Delivers frame withBreak spacing s outcome t

namespace Delivers

variable {frame : Except MessageError (List UInt8)} {withBreak : Bool}
variable {spacing : Micros} {outcome : Outcome Unit}

/-- Waiting leaves a link steady, and it stands as before. -/
theorem waited (waits : s.Waits t) (steady : s.Steady) (present : s.engine.attached = true) :
    t.Steady ∧ t.engine.attached = true := by
  have standing := standing_iff.mp (Steps.standing_eq waits nofun)
  exact ⟨Steps.steady waits Waits.calm steady, standing.2.2.trans present⟩

section

variable (h : s.Delivers frame withBreak spacing outcome t) (steady : s.Steady)
  (present : s.engine.attached = true)
include h steady present

theorem attached : t.engine.attached = true := by
  cases h with
  | streams | malformed => exact present
  | sends _ _ spaces transmits =>
      obtain ⟨steady', present'⟩ := waited spaces.waits steady present
      exact transmits.attached steady' present'

theorem steps : Steps IsSteering s t := by
  cases h with
  | streams | malformed => exact .refl
  | sends _ _ spaces transmits =>
      obtain ⟨steady', present'⟩ := waited spaces.waits steady present
      exact spaces.waits.steering.trans (transmits.steps steady' present')

theorem settled : t.Settled := by
  cases h with
  | streams | malformed => exact steady.settled
  | sends _ _ spaces transmits =>
      obtain ⟨steady', present'⟩ := waited spaces.waits steady present
      exact transmits.settled steady' present'

end

/-- A link that sends a sequence is not touched. -/
theorem eq_of_sending (h : s.Delivers frame withBreak spacing outcome t)
    (sending : s.engine.sending = true) : t = s := by
  cases h with
  | streams | malformed => rfl
  | sends quiet => simp [sending] at quiet

end Delivers

end Scene

end Dmx512
