import Dmx512.Proofs.Link.Intake
import Dmx512.Proofs.Link.Publishing
import Dmx512.Proofs.Reception.Commuting

/-!
# Timeouts and what is taken in

A receive alarm lets the receiver time out at the next reading of the clock. `Intake.attend`
tells what that makes of what a link has taken in, as it tells what a signal does, so that an
interrupt takes in the causes that it hands to the receiver. While the clock stands still they
all come at one instant: what a link has taken in is then told by the story that its receiver
lives through, and by nothing else.
-/

namespace Dmx512

open Act Standard

namespace Intake

variable {d r : Nat} {i m : Intake d r}

/-- Let the receiver time out at the next reading. -/
def timeOut (i : Intake d r) : Checked (Intake d r) := do
  let (receiver, frame) ← i.receiver.onTimeout (i.readings 0)
  pure { i with
    receiver
    occasions := i.occasions ++ [⟨.timeout, i.readings 0, frame.toList⟩]
    dmxStore := i.dmxStore.pushAll (frame.toList.filterMap Frame.dmx?)
    rdmStore := i.rdmStore.pushAll (frame.toList.filterMap Frame.rdm?)
    readings := fun n => i.readings (n + 1) }

def attend (i : Intake d r) : Cause → Checked (Intake d r)
  | .signal signal => i.hear signal
  | .timeout => i.timeOut

def attendAll (i : Intake d r) (causes : List Cause) : Checked (Intake d r) :=
  causes.foldlM attend i

theorem attendAll_signals (i : Intake d r) (signals : List Signal) :
    i.attendAll (signals.map .signal) = i.hearAll signals :=
  List.foldlM_map

theorem attendAll_append {first : List Cause} (attended : i.attendAll first = .ok m)
    (second : List Cause) : i.attendAll (first ++ second) = m.attendAll second := by
  rw [attendAll, List.foldlM_append]
  change i.attendAll first >>= _ = _
  rw [attended]
  rfl

theorem attendAll_cons {cause : Cause} (attended : i.attend cause = .ok m) (rest : List Cause) :
    i.attendAll (cause :: rest) = m.attendAll rest := by
  rw [attendAll, List.foldlM_cons, attended]
  rfl

/-- The clock stands still at `now`. -/
def Still (i : Intake d r) (now : Micros) : Prop := i.readings = fun _ => now

/-- What is left when the receiver has lived through a story and become `receiver`. -/
def live (i : Intake d r) (story : List Occasion) (receiver : Receiver) : Intake d r :=
  { i with
    receiver
    occasions := i.occasions ++ story
    dmxStore := i.dmxStore.pushAll ((storyFrames story).filterMap Frame.dmx?)
    rdmStore := i.rdmStore.pushAll ((storyFrames story).filterMap Frame.rdm?) }

theorem live_nil (i : Intake d r) : i.live [] i.receiver = i := by
  rw [live, List.append_nil]
  rfl

theorem live_live (i : Intake d r) (first second : List Occasion) (m t : Receiver) :
    (i.live first m).live second t = i.live (first ++ second) t := by
  simp only [live, storyFrames_append, List.filterMap_append, List.append_assoc]
  simp only [Frame.Store.pushAll, List.foldl_append]

section Still

variable {now : Micros} {t : Receiver} {frame : Option Frame} (still : i.Still now)
include still

theorem timeOut_still (attended : i.receiver.attend .timeout now = .ok (t, frame)) :
    i.timeOut = .ok (i.live [⟨.timeout, now, frame.toList⟩] t) := by
  have reading : i.readings 0 = now := congrFun still 0
  have passed : (fun n => i.readings (n + 1)) = i.readings := by
    rw [Still] at still
    simp only [still]
  change i.receiver.onTimeout now = _ at attended
  rw [timeOut, reading, passed, attended, live]
  simp only [storyFrames, List.flatMap_cons, List.flatMap_nil, List.append_nil]
  rfl

variable (runs : i.receiving = true)
include runs

theorem hear_still {signal : Signal}
    (attended : i.receiver.attend (.signal signal) now = .ok (t, frame)) :
    i.hear signal = .ok (i.live [⟨.signal signal, now, frame.toList⟩] t) := by
  have reading : i.readings 0 = now := congrFun still 0
  have spent : signal.spend i.readings = i.readings := by
    rw [Still] at still
    cases signal <;> simp only [Signal.spend, still]
  change i.receiver.hear signal now = _ at attended
  rw [hear, if_pos runs, reading, attended, live]
  simp only [spent, storyFrames, List.flatMap_cons, List.flatMap_nil, List.append_nil]
  rfl

theorem attend_still {cause : Cause} (attended : i.receiver.attend cause now = .ok (t, frame)) :
    i.attend cause = .ok (i.live [⟨cause, now, frame.toList⟩] t) := by
  cases cause with
  | signal signal => exact hear_still still runs attended
  | timeout => exact timeOut_still still attended

/-- What comes at one instant is taken in as the story that the receiver lives through. -/
theorem attendAll_still {story : List Occasion} (follows : i.receiver.Follows story t)
    (instant : ∀ o ∈ story, o.time = now) :
    i.attendAll (story.map Occasion.cause) = .ok (i.live story t) := by
  generalize start : i.receiver = receiver at follows
  induction follows generalizing i with
  | nil =>
      subst start
      exact congrArg Except.ok i.live_nil.symm
  | @cons _ m t o rest frame attended published _ ih =>
      obtain ⟨first, others⟩ := List.forall_mem_cons.mp instant
      subst start
      have same : (⟨o.cause, now, frame.toList⟩ : Occasion) = o := by rw [← first, ← published]
      have taken := attend_still still runs (first ▸ attended)
      rw [same] at taken
      rw [List.map_cons, attendAll_cons taken]
      have next := ih (i := i.live [o] m) still runs others rfl
      rwa [live_live] at next

end Still

/-- Without a receiver that runs, signals are dropped. -/
theorem hearAll_deaf (deaf : i.receiving = false) (signals : List Signal) :
    i.hearAll signals = .ok i := by
  induction signals with
  | nil => rfl
  | cons signal rest ih =>
      have dropped : i.hear signal = .ok i := by
        rw [hear, deaf]
        rfl
      rw [hearAll, List.foldlM_cons, dropped]
      exact ih

/-- A break with signals behind it, and a timeout, are taken in as the same whichever comes first,
but for the order in which the receiver responded to them. -/
theorem break_timeOut_commute {now : Micros} (still : i.Still now) (wf : i.receiver.WellFormed)
    (deaf : i.receiving = false → i.receiver.state = .idle) {signals : List Signal}
    (short : signals.length ≤ maxSlots) :
    ∃ story story' t frames,
      i.attendAll ((Signal.lineBreak :: signals).map .signal ++ [.timeout]) =
        .ok (i.live story t) ∧
      i.attendAll (.timeout :: (Signal.lineBreak :: signals).map .signal) =
        .ok (i.live story' t) ∧
      storyFrames story = (i.receiver.ended? now).toList ++ frames ∧
      storyFrames story' = (i.receiver.ended? now).toList ++ frames ∧
      ∀ frame, .dmx frame ∉ frames := by
  cases runs : i.receiving with
  | false =>
      have idle : i.receiver.state ≠ .dmxData := by rw [deaf runs]; decide
      have stale : i.receiver.attend .timeout now = .ok (i.receiver, none) :=
        Receiver.onTimeout_stale idle now
      have nothing : i.receiver.ended? now = none := by
        rw [Receiver.ended?, Receiver.overdue_of_state idle now]
        rfl
      have timed : i.attend .timeout = .ok (i.live [⟨.timeout, now, []⟩] i.receiver) :=
        timeOut_still still stale
      have dropped {j : Intake d r} (deaf : j.receiving = false) :
          j.attendAll ((Signal.lineBreak :: signals).map .signal) = .ok j :=
        (attendAll_signals _ _).trans (hearAll_deaf deaf _)
      rw [nothing]
      refine ⟨[⟨.timeout, now, []⟩], [⟨.timeout, now, []⟩], i.receiver, [], ?_, ?_, rfl, rfl,
        fun _ => List.not_mem_nil⟩
      · rw [attendAll_append (dropped runs)]
        exact (attendAll_cons timed []).trans rfl
      · rw [attendAll_cons timed]
        exact dropped runs
  | true =>
      obtain ⟨later, t, first, second, met, instant, silent⟩ :=
        wf.break_beside_timeout now signals short
      have causes : ((Signal.lineBreak :: signals).map .signal : List Cause) =
          .signal .lineBreak :: later.map Occasion.cause := by rw [met]; rfl
      have taken := attendAll_still still runs first (List.forall_mem_cons.mpr ⟨rfl,
        List.forall_mem_append.mpr ⟨instant, List.forall_mem_singleton.mpr rfl⟩⟩)
      have taken' := attendAll_still still runs second (List.forall_mem_cons.mpr ⟨rfl,
        List.forall_mem_cons.mpr ⟨rfl, instant⟩⟩)
      rw [List.map_cons, List.map_append, ← List.cons_append, ← causes] at taken
      rw [List.map_cons, List.map_cons, ← causes] at taken'
      refine ⟨_, _, t, storyFrames later, taken, taken', ?_, ?_, ?_⟩
      · rw [storyFrames_cons, storyFrames_append]
        exact congrArg _ (List.append_nil _)
      · rw [storyFrames_cons, storyFrames_cons]
        rfl
      · intro frame shown
        obtain ⟨o, told, published⟩ := List.mem_flatMap.mp shown
        exact silent o told frame published

end Intake

namespace Link.TookIn

variable {H : Type} [Hardware H] {d r : Nat} {clockwork : Clockwork H} {s : Link H d r}
variable {i : Intake d r} {signals : List Signal}

/-- A timeout is taken in as `Intake.timeOut` says. -/
theorem timeOut (h : s.TookIn clockwork i signals) :
    WP (fun _ => True) Link.timeOut (fun _ t => ∃ i', i.timeOut = .ok i' ∧
      t.TookIn clockwork i' signals) s := by
  have receiver : s.cell.value.receiver = i.receiver := by rw [← h.intake]; rfl
  have time : s.line.now = i.readings 0 := by
    rw [← h.intake]
    exact clockwork.shown _
  rw [Link.timeOut]
  simp only [WP.bind_iff, wp_readClock, wp_note, wp_getEngine, receiver, time]
  cases served : i.receiver.onTimeout (i.readings 0) with
  | error => trivial
  | ok served' =>
      obtain ⟨receiver, frame⟩ := served'
      simp only [WP.lift_ok_iff, wp_setReceiver]
      let alarmed : Link H d r := { s with
        line := {
          hardware := Hardware.tick s.line.hardware
          journal := ⟨i.readings 0, .receiveAlarm⟩ :: ⟨i.readings 0, .clockRead⟩ ::
            s.line.journal }
        cell := { s.cell with value := { s.cell.value with receiver } } }
      have told : alarmed.TookIn clockwork { i with
          receiver
          occasions := i.occasions ++ [⟨.timeout, i.readings 0, []⟩]
          readings := fun n => i.readings (n + 1) } signals := by
        obtain ⟨rfl, pending⟩ := h
        refine ⟨?_, (clockwork.ticked _).trans pending⟩
        rw [Link.intake, clockwork.passed]
        rfl
      apply (told.publish rfl (i.readings 0) frame).mono
      intro _ t published
      simp only [wp_order, wp_modifyEngine]
      have other : Order.cancelAlarm .receiveTimeout ≠ .clearReceive := by
        intro same
        cases same
      have disarmed := published.ordered other t.line.now
      have forgotten := (⟨disarmed.intake, disarmed.pending⟩ : TookIn clockwork _ signals
        { t with
          line := {
            hardware := Hardware.obey (.cancelAlarm .receiveTimeout) t.line.hardware
            journal := ⟨t.line.now, .order (.cancelAlarm .receiveTimeout)⟩ :: t.line.journal }
          cell := { t.cell with value := { t.cell.value with watchdog := none } } })
      apply forgotten.syncWatchdog.mono
      intro _ u synced
      refine ⟨_, ?_, synced⟩
      rw [Intake.timeOut, served]
      rfl

/-- An interrupt that concerns reception takes in what it hands to the receiver, and leaves the
rest of the queue. -/
theorem attends (h : s.TookIn clockwork i signals) (used : s.uses = free) {interrupt : Interrupt}
    (concerns : interrupt ≠ .transmitTimer) :
    WP (fun _ => True) (Link.serve interrupt) (fun _ t =>
      ∃ i', i.attendAll (heardBy signals interrupt) = .ok i' ∧
        t.TookIn clockwork i' (leftBy signals interrupt)) s := by
  cases interrupt with
  | uart =>
      apply (h.serve used).mono
      rintro _ t ⟨i', heard, taken⟩
      exact ⟨i', (i.attendAll_signals _).trans heard, taken⟩
  | transmitTimer => exact absurd rfl concerns
  | receiveTimeout =>
      rw [Link.serve, wp_critical used]
      have entered : TookIn clockwork i signals
          { s with cell := { s.cell with exclusive := true } } := ⟨h.intake, h.pending⟩
      apply entered.timeOut.mono
      rintro _ t ⟨i', timed, taken⟩
      have attended : i.attend .timeout = .ok i' := timed
      exact ⟨i', Intake.attendAll_cons attended [], taken.intake, taken.pending⟩

end Link.TookIn

section

variable {d r : Nat} {s t : Scene d r}

/-- What the receiver publishes while interrupts are served is what the story tells that it lives
through. -/
theorem Step.tells (step : Step .interrupt s t) :
    ∃ story, s.Hears story t ∧ s.Publishes (storyFrames story) t := by
  -- A step that tells the receiver of nothing publishes nothing.
  have silent {t : Scene d r} (hears : s.Hears [] t) (publishes : s.Publishes [] t) :
      ∃ story, s.Hears story t ∧ s.Publishes (storyFrames story) t := ⟨[], hears, publishes⟩
  cases step with
  | readClock time => exact silent (.note (by simp [Event.topic]) time) (.silent rfl rfl rfl)
  | sample time status => exact silent (.note (by simp [Event.topic]) time) (.silent rfl rfl rfl)
  | paceIdle time => exact silent (.order time _) (.order time _)
  | sync time => exact silent (.sync time) (.sync time)
  | @resume _ entries t continues =>
      have lacks := continues.lacks (show _ ∧ Event.Topic.reception ≠ .other by decide)
      exact silent ((Scene.Hears.withTransmitter t).trans (.extend lacks))
        ((Scene.Publishes.withTransmitter t).trans (.extend lacks))
  | pace later _ advances =>
      have lacks := advances.lacks (show Event.Topic.reception ≠ .byte ∧ _ by decide)
      have other (phase : TransmitState) : (Event.transmitAlarm phase).topic ≠ .reception := by
        intro same
        cases same
      exact silent
        ((((Scene.Hears.note (other _) _).trans (.withTransmitter _)).trans (.extend lacks)).trans
          (.order later _))
        ((((Scene.Publishes.note (other _) _).trans (.withTransmitter _)).trans
          (.extend lacks)).trans (.order later _))
  | @hear _ signal time receiver frame _ heard =>
      have handed : s.Publishes [] ((s.note time (.heard signal)).withReceiver receiver) :=
        .silent rfl rfl rfl
      refine ⟨_, .attend (.signal signal) heard rfl, ?_⟩
      simpa [storyFrames] using handed.trans (.publish time frame)
  | @timeOut _ time receiver frame later served =>
      have alarmed : s.Publishes [] ((s.note time .receiveAlarm).withReceiver receiver) :=
        .silent rfl rfl rfl
      refine ⟨_, (Scene.Hears.attend .timeout served rfl).trans (.watch later none), ?_⟩
      simpa [storyFrames] using (alarmed.trans (.publish time frame)).trans (.watch later none)

theorem Steps.tells (steps : Steps (· = .interrupt) s t) :
    ∃ story, s.Hears story t ∧ s.Publishes (storyFrames story) t := by
  induction steps with
  | refl => exact ⟨[], .refl s, .refl s⟩
  | tail _ step ih =>
      obtain ⟨_, rfl, step⟩ := step
      obtain ⟨story, hears, publishes⟩ := ih
      obtain ⟨more, hears', publishes'⟩ := step.tells
      refine ⟨story ++ more, hears.trans hears', ?_⟩
      rw [storyFrames_append]
      exact publishes.trans publishes'

end

end Dmx512
