import Dmx512.Proofs.Link.Watching
import Dmx512.Proofs.Node.Sending
import Dmx512.Proofs.Node.Session
import Dmx512.Proofs.Node.Tuning

/-!
# The receive alarm of a node

Between operations the receive alarm is set exactly while a DMX frame is under construction
of which a slot has arrived, and to the instant at which that frame ends without a further
slot. What the deadline is follows from the journal alone: from the last two bytes heard
behind the latest break of the session. An alarm that is served early, or that finds no such
frame, leaves the node as it was.
-/

namespace Dmx512

namespace Attached

open Act Link

variable {H : Type} [Hardware H] {d r : Nat} {allowed : Fault → Prop} {s : Attached H d r}

/-- A station that takes a sample serves interrupts, and each leaves the alarm in line. -/
theorem wp_sample_aligned (used : s.link.uses = free) (sound : s.link.scene.Sound)
    (aligned : s.link.scene.Aligned) :
    WP allowed sample (fun _ t => t.link.scene.Aligned) s :=
  wp_sample ((wp_foregroundClock_aligned used sound aligned).mono fun _ _ aligned' _ _ => aligned')

end Attached

namespace Node

open Act Link Standard

variable {H : Type} [Hardware H] {d r : Nat} {s t : Node H d r} {answer : Answer}

omit [Hardware H] in
/-- What leaves the alarm in line at a station that is ready does so at a node. -/
theorem wp_onStation_aligned (h : s.Sound) (watched : s.link.scene.Watched)
    (aligned : s.link.scene.Aligned) {act : Act (Attached H d r) Answer}
    (leaves : ∀ a : Attached H d r, a.Ready → a.link.scene.Watched → a.link.scene.Aligned →
      WP Fault.IsStall act (fun _ t => t.link.scene.Aligned) a) :
    WP Fault.IsStall (onStation act) (fun _ t => t.link.scene.Aligned) s := by
  cases present : s.station with
  | none => exact (wp_onStation_none present).mpr aligned
  | some station =>
      exact (wp_onStation_some present).mpr
        ((leaves _ (h.ready present) watched aligned).mono fun _ _ aligned' => aligned')

omit [Hardware H] in
/-- What makes no steps leaves the alarm in line. -/
theorem wp_onStation_query (h : s.Sound) (watched : s.link.scene.Watched)
    (aligned : s.link.scene.Aligned) {act : Act (Attached H d r) Answer}
    (does : Attached.Does (fun _ => False) act) :
    WP Fault.IsStall (onStation act) (fun _ t => t.link.scene.Aligned) s :=
  wp_onStation_aligned h watched aligned fun a ready _ aligned =>
    (does a ready.free ready.sound).mono fun _ _ moves =>
      (moves.steps.apart id id).aligned aligned

theorem wp_attach_aligned (h : s.Sound) (watched : s.link.scene.Watched)
    (aligned : s.link.scene.Aligned) (config : Config) :
    WP Fault.IsStall (attach config) (fun _ t => t.link.scene.Aligned) s := by
  apply (wp_attach_leads h config).mono
  rintro _ t (⟨⟨_, attaches⟩, _⟩ | ⟨attaches, _⟩)
  · exact attaches.aligned h.toSteady watched aligned
  · exact attaches.aligned h.toSteady watched aligned

theorem wp_detach_aligned (h : s.Sound) (watched : s.link.scene.Watched)
    (aligned : s.link.scene.Aligned) :
    WP Fault.IsStall detach (fun _ t => t.link.scene.Aligned) s := by
  cases present : s.station with
  | none => exact (wp_detach_none present).mpr aligned
  | some station =>
      refine (wp_detach_some present).mpr ((Link.wp_detach h.free).mono ?_)
      rintro _ link ⟨detaches, _⟩
      exact detaches.aligned h.toSteady watched

/-- Whatever an operation does, it leaves the alarm in line. -/
theorem wp_perform_aligned (h : s.Sound) (watched : s.link.scene.Watched)
    (aligned : s.link.scene.Aligned) (operation : Operation) :
    WP Fault.IsStall (perform operation) (fun _ t => t.link.scene.Aligned) s := by
  -- What an operation does that is apart from reception is told by the kinds of its steps.
  have apart (interrupts : ¬ operation.kinds .interrupt) (controls : ¬ operation.kinds .control) :
      WP Fault.IsStall (perform operation) (fun _ t => t.link.scene.Aligned) s :=
    (wp_perform h operation).mono fun _ _ performed =>
      (performed.moves.steps.apart interrupts controls).aligned aligned
  cases operation with
  | attach config => exact wp_attach_aligned h watched aligned config
  | detach => exact wp_detach_aligned h watched aligned
  | interrupt interrupt =>
      rw [perform, WP.bind_iff, wp_onLink]
      exact (wp_serve h.free h.sound interrupt).mono fun _ _ served => served.2 aligned
  | counters => exact aligned
  | setDirection target enable =>
      refine wp_onStation_aligned h watched aligned fun a ready watched aligned => ?_
      apply WP.bind (Attached.wp_setDirection ready target enable fun sending _ =>
        ready.mayDrain Fault.isStall_stalled sending)
      rintro _ _ switches
      exact switches.scene.aligned ready.toSteady watched aligned
  | setBreakTime | setMarkTime | setPeriod | sendData | sendSlots | takeDmx | peekDmx
  | takeChangedDmx | takeRdm | peekRdm | flush =>
      exact apart (by simp [Operation.kinds]) (by simp [Operation.kinds])
  | timing =>
      exact wp_onStation_query h watched aligned (Attached.Does.timing.bind fun _ => .pure _)
  | config =>
      exact wp_onStation_query h watched aligned (Attached.Does.get.bind fun _ => .pure _)
  | direction =>
      exact wp_onStation_query h watched aligned (Attached.Does.direction.bind fun _ => .pure _)
  | resetCounters =>
      exact wp_onStation_query h watched aligned
        (Attached.Does.resetCounters.bind fun _ => .pure _)
  | transaction =>
      exact wp_onStation_query h watched aligned (Attached.Does.get.bind fun _ => .pure _)
  | statistics | updatesPerSecond =>
      refine wp_onStation_aligned h watched aligned fun a ready _ aligned => ?_
      simp only [Attached.statistics, Attached.updatesPerSecond, WP.bind_iff, WP.get_iff,
        WP.pure_iff]
      exact Attached.wp_sample_aligned ready.free ready.sound aligned
  | sendMessage message spacing =>
      refine wp_onStation_aligned h watched aligned fun a ready watched aligned => ?_
      apply WP.bind (Attached.wp_sendMessage (fun _ _ _ => mayWait_isStall) ready spacing)
      rintro answer _ ⟨_, _, dispatches⟩
      have aligned' := dispatches.leads.scene.aligned ready.toSteady watched ready.attached aligned
      cases answer <;> exact aligned'
  | sendResponse message =>
      exact wp_onStation_aligned h watched aligned fun a ready watched aligned =>
        WP.bind (Attached.wp_sendResponse (fun _ _ _ => mayWait_isStall) ready)
          fun _ _ dispatches =>
            dispatches.leads.scene.aligned ready.toSteady watched ready.attached aligned
  | sendDiscoveryResponse uid =>
      exact wp_onStation_aligned h watched aligned fun a ready watched aligned =>
        WP.bind (Attached.wp_sendDiscoveryResponse (fun _ => mayWait_isStall) ready uid)
          fun _ _ dispatches =>
            dispatches.leads.scene.aligned ready.toSteady watched ready.attached aligned

/-- Between operations the receive alarm is watched and in line. -/
structure Watchful (s : Node H d r) : Prop where
  watched : s.link.scene.Watched
  aligned : s.link.scene.Aligned

theorem Sound.act_watchful (h : s.Sound) (watchful : s.Watchful) {action : Action H}
    (acted : s.act action = .ok t) : t.Watchful := by
  refine ⟨(h.act acted).moves.steps.watched h.sound h.wired watchful.watched, ?_⟩
  cases action with
  | disturb change =>
      cases acted
      exact watchful.aligned
  | perform operation =>
      obtain ⟨answer, ended⟩ := perform_of_act acted
      exact (wp_perform_aligned h watchful.watched watchful.aligned operation).elim ended

theorem Reachable.watchful (reachable : s.Reachable) : s.Watchful :=
  reachable.induct (fun _ _ _ sound watchful acted => sound.act_watchful watchful acted)
    fun _ => ⟨⟨rfl, fun _ => rfl⟩, rfl⟩

omit [Hardware H] in
/-- Between operations the receive alarm is set to the deadline of the receiver. -/
theorem Watchful.alarm_eq (h : s.Watchful) :
    s.link.line.journal.alarm? .receiveTimeout = s.link.engine.receiver.deadline :=
  h.watched.armed.trans h.aligned

omit [Hardware H] in
/-- The alarm of a link that does not receive is not set. -/
theorem Watchful.receiving {deadline : Micros} (h : s.Watchful)
    (armed : s.link.cell.value.watchdog = some deadline) :
    s.link.cell.value.receiving = true := by
  apply Bool.not_eq_false _ |>.mp
  intro deaf
  cases armed.symm.trans (h.watched.idle deaf)

/-- The receive alarm. After every operation of every run it is set exactly where the line is
input, its sequencer runs, the receiver collects dimmer data and a slot has arrived behind the
start code; and then to the time of the last slot, later by the spacing to the slot or start
code before it, 44 us at least, and by the guard time. Where its deadline has not come or none
is set, serving it ends and changes neither the engine nor the station, publishes nothing, and
leaves both alarms as they are. -/
theorem Reachable.receive_alarm (reachable : s.Reachable) :
    (∀ deadline, s.link.line.journal.alarm? .receiveTimeout = some deadline ↔
      s.link.engine.direction = .input ∧ s.link.engine.running = true ∧
      s.link.engine.receiver.state = .dmxData ∧
      ∃ front previous last,
        storyArrivals (sinceBreak s.link.line.journal.session) = front ++ [previous, last] ∧
        ((front ++ [previous]).map Prod.fst).head? = some dmxStartCode ∧
        deadline = last.2 + max (elapsed last.2 previous.2) spacingFloor + timeoutGuard) ∧
    ((∀ deadline, s.link.line.journal.alarm? .receiveTimeout = some deadline →
        isDue s.link.line.now deadline = false) →
      ∃ t, perform (.interrupt .receiveTimeout) s = .ok (.done, t) ∧
        t.link.engine = s.link.engine ∧ t.station = s.station ∧
        t.link.dmxStore = s.link.dmxStore ∧ t.link.rdmStore = s.link.rdmStore ∧
        t.link.line.journal.publications = s.link.line.journal.publications ∧
        ∀ alarm, t.link.line.journal.alarm? alarm = s.link.line.journal.alarm? alarm) := by
  have sound := reachable.sound
  have watchful := reachable.watchful
  -- The deadline is kept three times: by the hardware, in the cell, and by the receiver.
  have armed : s.link.line.journal.alarm? .receiveTimeout = s.link.engine.watchdog :=
    watchful.watched.armed
  have aligned : s.link.engine.watchdog = s.link.engine.receiver.deadline := watchful.aligned
  obtain ⟨r, fresh, follows⟩ := reachable.recounts.lives
  have constructs : s.link.engine.receiver.Constructs s.link.line.journal.session :=
    fresh.constructs follows
  refine ⟨fun deadline => ?_, fun early => ?_⟩
  · rw [armed]
    constructor
    · intro pending
      have receiving := watchful.receiving pending
      simp only [Engine.receiving, Bool.and_eq_true, beq_iff_eq] at receiving
      obtain ⟨slots, _⟩ := constructs.wellFormed.deadline.mp
        (Option.isSome_of_mem (aligned.symm.trans pending))
      have fills := constructs.slots slots
      obtain ⟨front, previous, last, arrivals, same⟩ :=
        slotDeadline?_eq_some.mp (fills.deadline.symm.trans (aligned.symm.trans pending))
      have code := fills.head?
      rw [arrivals] at code
      refine ⟨receiving.2, receiving.1, slots, front, previous, last, arrivals, ?_, same⟩
      cases front <;> exact code
    · rintro ⟨_, _, slots, front, previous, last, arrivals, _, rfl⟩
      rw [aligned, (constructs.slots slots).deadline]
      exact slotDeadline?_eq_some.mpr ⟨front, previous, last, arrivals, rfl⟩
  · have stays : WP (fun _ => False) (perform (.interrupt .receiveTimeout)) (fun answer t =>
        answer = .done ∧ t.station = s.station ∧ s.link.scene.Stays t.link.scene) s := by
      rw [perform, WP.bind_iff, wp_onLink]
      apply (wp_serve_early sound.free watchful.watched watchful.aligned fun deadline pending =>
        early deadline (armed.trans pending)).mono
      intro _ link stays
      exact ⟨rfl, rfl, stays⟩
    obtain ⟨_, t, ended, rfl, station, stays⟩ := stays.exists_ok
    exact ⟨t, ended, stays.engine, station, stays.publishes.dmxStore, stays.publishes.rdmStore,
      stays.publishes.publications.trans (List.append_nil _), stays.alarms⟩

/-- Behind the start code and one slot, which came at once, the alarm is set to the least time
that a slot may take, and the guard. Served at once, it is left as it was. -/
theorem Reachable.receive_alarm_slots :
    ∃ s t : Node Bench 0 0, s.Reachable ∧
      s.link.line.journal.alarm? .receiveTimeout = some 56 ∧
      s.link.engine.receiver.state = .dmxData ∧
      (∃ front previous last,
        storyArrivals (sinceBreak s.link.line.journal.session) = front ++ [previous, last] ∧
        56 = last.2 + max (elapsed last.2 previous.2) spacingFloor + timeoutGuard) ∧
      perform (.interrupt .receiveTimeout) s = .ok (.done, t) ∧
      t.link.line.journal.alarm? .receiveTimeout = some 56 := by
  have carried : (powerUp {} : Node Bench 0 0).Ends (benchStart ++ earlierRun) fun s =>
      s.link.line.journal.alarm? .receiveTimeout = some 56 ∧
        isDue s.link.line.now 56 = false := by
    decide +kernel
  obtain ⟨s, ran, armed, early⟩ := carried
  have reachable : s.Reachable := ⟨{}, benchStart ++ earlierRun, ran⟩
  obtain ⟨covers, serves⟩ := Reachable.receive_alarm reachable
  obtain ⟨_, _, state, front, previous, last, arrivals, _, deadline⟩ := (covers 56).mp armed
  obtain ⟨t, ended, _, _, _, _, _, alarms⟩ := serves fun deadline armed' => by
    cases armed.symm.trans armed'
    exact early
  exact ⟨s, t, reachable, armed, state, ⟨front, previous, last, arrivals, deadline⟩, ended,
    (alarms _).trans armed⟩

end Node

end Dmx512
