import Dmx512.Proofs.Link.Wiring

/-!
# Between operations

On its way through an operation the foreground asks a sequence to end and puts a
break on a stopped line, and undoes both before it is done; and a station attaches
by driving its pin. `Scene.Settled` holds where no operation is under way, and what
leaves the sequencers alone leaves a link settled.
-/

namespace Dmx512

namespace Transmitter

variable {t t' : Transmitter} {entries : Journal} {now : Micros} {next : Option Micros}

theorem Continues.stopping_eq (h : t.Continues entries t') : t'.stopping = t.stopping := by
  cases h <;> rfl

theorem Continues.lineBreak_eq (h : t.Continues entries t') {journal : Journal} :
    (entries ++ journal).levels.lineBreak = journal.levels.lineBreak := by
  cases h with
  | whole _ _ hands =>
      rw [List.cons_append, Journal.levels_allowTransmit, Journal.levels_append hands.quiet]
  | part _ _ hands => rw [Journal.levels_append hands.quiet]

theorem Advances.stopping_eq (h : t.Advances now entries t' next) : t'.stopping = t.stopping := by
  cases h with
  | lineBreak _ _ _ begun =>
      obtain ⟨timing, begins⟩ := t.beginFrame_ok now
      cases begins.symm.trans begun
      rfl
  | rest | mark | whole | part | overrun => rfl

end Transmitter

/-- The foreground has undone what it does only on its way through an operation. -/
structure Scene.Settled {d r : Nat} (s : Scene d r) : Prop where
  /-- A sequence is to go on. -/
  goesOn : s.engine.transmitter.stopping = false
  /-- A stopped link has no break on its line. -/
  released : s.engine.running = false → s.journal.breakAsserted = false
  /-- A station has driven its pin. -/
  driven : s.engine.attached = true → s.journal.pinLevel?.isSome = true

section

variable {d r : Nat} {kind : Step.Kind} {kinds : Step.Kind → Prop} {s t : Scene d r}

namespace Scene

theorem suffix_publish (time : Micros) (frame : Option Frame) :
    s.journal <:+ (s.publish time frame).journal := by
  rcases frame with - | frame | frame
  · exact List.suffix_rfl
  · exact List.suffix_cons _ _
  · exact List.suffix_cons _ _

theorem suffix_sync (time : Micros) : s.journal <:+ (s.sync time).journal := by
  rw [sync]
  split
  · exact List.suffix_rfl
  · exact List.suffix_cons _ _

theorem suffix_start (first second : Micros) : s.journal <:+ (s.start first second).journal := by
  rw [start]
  split <;> exact ⟨[_, _], rfl⟩

theorem suffix_halt (first second third : Micros) :
    s.journal <:+ (s.halt first second third).journal := by
  rw [halt]
  split
  · exact (List.suffix_cons _ _).trans (suffix_sync (s := (s.order first
      (.allowReceive false)).withReceiver s.engine.receiver.reset) second)
  · exact ⟨[_, _, _], rfl⟩

end Scene

/-- A journal only grows. -/
theorem Step.journal_suffix (step : Step kind s t) : s.journal <:+ t.journal := by
  cases step with
  | readClock | sample | paceIdle | queue | refuse | setBreak | write => exact List.suffix_cons _ _
  | configure | takeDmx | takeRdm | flush | claim | release | requestStop => exact List.suffix_rfl
  | turn => exact ⟨[_, _], rfl⟩
  | resume => exact List.suffix_append _ _
  | pace =>
      exact ((List.suffix_cons _ _).trans (List.suffix_append _ _)).trans (List.suffix_cons _ _)
  | @hear _ signal time receiver frame =>
      exact (List.suffix_cons _ _).trans
        (Scene.suffix_publish (s := (s.note time (.heard signal)).withReceiver receiver) _ _)
  | @timeOut _ time receiver frame =>
      exact ((List.suffix_cons _ _).trans (Scene.suffix_publish
        (s := (s.note time .receiveAlarm).withReceiver receiver) _ _)).trans (List.suffix_cons _ _)
  | sync time => exact Scene.suffix_sync time
  | start first second => exact Scene.suffix_start first second
  | halt first second third => exact Scene.suffix_halt first second third

theorem Steps.journal_suffix (steps : Steps kinds s t) : s.journal <:+ t.journal := by
  induction steps with
  | refl => exact List.suffix_rfl
  | tail _ step ih =>
      obtain ⟨_, _, step⟩ := step
      exact ih.trans step.journal_suffix

/-- What goes on beside control: the link stands as before, nothing more is asked of a
sequence, and a stopped line has its break or has none as before. -/
structure Scene.Keeps (s t : Scene d r) : Prop where
  standing : t.standing = s.standing
  stopping : t.engine.transmitter.stopping = s.engine.transmitter.stopping
  lineBreak : s.engine.running = false →
    t.journal.levels.lineBreak = s.journal.levels.lineBreak
  older : s.journal <:+ t.journal

namespace Scene.Keeps

theorem refl (s : Scene d r) : s.Keeps s := ⟨rfl, rfl, fun _ => rfl, List.suffix_rfl⟩

theorem trans {u : Scene d r} (h : s.Keeps t) (h' : t.Keeps u) : s.Keeps u where
  standing := h'.standing.trans h.standing
  stopping := h'.stopping.trans h.stopping
  lineBreak stopped :=
    (h'.lineBreak ((Scene.standing_iff.mp h.standing).2.1.trans stopped)).trans
      (h.lineBreak stopped)
  older := h.older.trans h'.older

theorem note {event : Event} (quiet : event.IsQuiet) (time : Micros) :
    s.Keeps (s.note time event) :=
  ⟨rfl, rfl, fun _ => congrArg _ (Journal.levels_cons quiet), List.suffix_cons _ _⟩

theorem settled (h : s.Keeps t) (settled : s.Settled) : t.Settled := by
  obtain ⟨_, running, attached⟩ := Scene.standing_iff.mp h.standing
  refine ⟨h.stopping.trans settled.goesOn, fun stopped => ?_, fun present => ?_⟩
  · have stopped' : s.engine.running = false := running.symm.trans stopped
    exact (h.lineBreak stopped').trans (settled.released stopped')
  · exact Journal.isSome_pinLevel? h.older (settled.driven (attached.symm.trans present))

end Scene.Keeps

/-- What leaves the sequencers alone goes on beside control. -/
theorem Step.keeps (step : Step kind s t) (calm : kind.IsCalm) : s.Keeps t := by
  have standing : t.standing = s.standing :=
    step.standing_eq (by rintro rfl; simp [Step.Kind.IsCalm] at calm)
  have older := step.journal_suffix
  cases step with
  | claim | release | refuse | turn | requestStop | start | halt | setBreak | write =>
      simp [Step.Kind.IsCalm] at calm
  | readClock | sample | takeDmx | takeRdm | flush | paceIdle =>
      exact ⟨standing, rfl, fun _ => rfl, older⟩
  | hear =>
      refine ⟨standing, ?_, fun _ => ?_, older⟩
      · rw [Scene.engine_publish]; rfl
      · rw [Scene.levels_publish]; rfl
  | timeOut =>
      refine ⟨standing, ?_, fun _ => ?_, older⟩
      · change (Scene.publish _ _ _).engine.transmitter.stopping = _
        rw [Scene.engine_publish]; rfl
      · rw [Scene.levels_watch, Scene.levels_publish]; rfl
  | sync =>
      refine ⟨standing, ?_, fun _ => ?_, older⟩
      · rw [Scene.engine_sync]
      · rw [Scene.levels_sync]
  | resume continues =>
      exact ⟨standing, continues.stopping_eq, fun _ => continues.lineBreak_eq, older⟩
  | pace later sending advances =>
      refine ⟨standing, advances.stopping_eq, fun stopped => ?_, older⟩
      simp [Engine.sending, stopped] at sending
  | queue _ queued =>
      obtain ⟨_, timing, rfl⟩ := Transmitter.eq_of_queue queued
      exact ⟨standing, rfl, fun _ => rfl, older⟩
  | configure configured =>
      obtain ⟨timing, configures⟩ := s.engine.transmitter.configure_ok _
      cases configures.symm.trans configured
      exact ⟨standing, rfl, fun _ => rfl, older⟩

theorem Steps.keeps (steps : Steps kinds s t) (calm : ∀ kind, kinds kind → kind.IsCalm) :
    s.Keeps t := by
  induction steps with
  | refl => exact .refl s
  | tail _ step ih =>
      obtain ⟨kind, within, step⟩ := step
      exact ih.trans (step.keeps (calm kind within))

end

/-- What holds of a link between operations. -/
structure Scene.Steady {d r : Nat} (s : Scene d r) : Prop where
  sound : s.Sound
  wired : s.Wired
  settled : s.Settled

theorem Steps.steady {d r : Nat} {kinds : Step.Kind → Prop} {s t : Scene d r}
    (steps : Steps kinds s t) (calm : ∀ kind, kinds kind → kind.IsCalm) (h : s.Steady) :
    t.Steady :=
  ⟨steps.sound h.sound, steps.wired h.wired, (steps.keeps calm).settled h.settled⟩

end Dmx512
