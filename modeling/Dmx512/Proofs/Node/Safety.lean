import Dmx512.Node.Run
import Dmx512.Proofs.Station.Rdm

/-!
# Every operation makes steps

Every operation of a node ends with an answer, unless it waits on a clock that
stands still, and what it does to the link is a sequence of steps. No other fault
is possible.
-/

namespace Dmx512

open Standard

/-- The frames that an operation queues at a station. -/
def Operation.frames : Operation → List (List UInt8)
  | .sendData frame => if frame = [] ∨ frame.length > dmxCapacity then [] else [frame]
  | .sendSlots slots => if slots.length > maxSlots then [] else [dmxStartCode :: slots]
  | _ => []

/-- The kinds of steps that an operation makes: what queues frames does nothing else,
nor does what takes frames from the stores or sets the timing; and but for these, only
attaching sets the timing. -/
def Operation.kinds : Operation → Step.Kind → Prop
  | .sendData _ | .sendSlots _ => (· = .queue)
  | .takeDmx | .peekDmx | .takeChangedDmx | .takeRdm | .peekRdm | .flush => (· = .read)
  | .setBreakTime _ | .setMarkTime _ | .setPeriod _ => (· = .adjust)
  | .attach _ => Step.Kind.IsFrameless
  | _ => Step.Kind.IsSteering

namespace Node

open Act Link

variable {H : Type} {d r : Nat} {s t : Node H d r}

def Action.frames : Action H → List (List UInt8)
  | .perform operation => operation.frames
  | .disturb _ => []

def Action.kinds : Action H → Step.Kind → Prop
  | .perform operation => operation.kinds
  | .disturb _ => Step.Kind.IsSteering

variable {kinds : Step.Kind → Prop}

/-- What holds of a node between operations. -/
structure Sound (s : Node H d r) : Prop extends s.link.scene.Steady where
  free : s.link.uses = Link.free
  attached : s.link.cell.value.attached = s.station.isSome

/-- What an action does to a node: it makes steps of some kinds and leaves the link
settled, queues its frames if there is a station, and where the link sends before and
after, its sequencer was left alone by all its steps. -/
structure Performed (kinds : Step.Kind → Prop) (frames : List (List UInt8)) (s t : Node H d r) :
    Prop where
  moves : Moves kinds s.link t.link
  attached : t.link.cell.value.attached = t.station.isSome
  settled : t.link.scene.Settled
  calm : s.link.cell.value.sending = true → t.link.cell.value.sending = true →
    Moves (fun kind => kind.IsCalm ∧ kinds kind) s.link t.link
  queued : s.station.isSome = true →
    t.link.line.journal.queued = s.link.line.journal.queued ++ frames

namespace Performed

theorem sound {frames : List (List UInt8)} (h : Performed kinds frames s t) (sound : s.Sound) :
    t.Sound where
  sound := h.moves.sound sound.sound
  wired := h.moves.steps.wired sound.wired
  settled := h.settled
  free := h.moves.uses.trans sound.free
  attached := h.attached

/-- What queues no frame. -/
theorem of_unqueued (moves : Moves kinds s.link t.link) (lacks : ¬ kinds .queue)
    (attached : t.link.cell.value.attached = t.station.isSome) (settled : t.link.scene.Settled)
    (calm : s.link.cell.value.sending = true → t.link.cell.value.sending = true →
      Moves (fun kind => kind.IsCalm ∧ kinds kind) s.link t.link) : Performed kinds [] s t :=
  ⟨moves, attached, settled, calm,
    fun _ => (moves.steps.queued_eq lacks).trans (List.append_nil _).symm⟩

/-- What leaves the link as it is. -/
theorem of_scene_eq (h : s.Sound) (same : t.link.scene = s.link.scene)
    (uses : t.link.uses = s.link.uses) (station : t.station.isSome = s.station.isSome) :
    Performed kinds [] s t where
  moves := .of_scene_eq same uses
  attached := (congrArg (·.engine.attached) same).trans (h.attached.trans station.symm)
  settled := same ▸ h.settled
  calm _ _ := .of_scene_eq same uses
  queued _ := (congrArg (·.journal.queued) same).trans (List.append_nil _).symm

/-- What leaves the sequencers alone. -/
theorem of_calm {link : Link H d r} (h : s.Sound) (moves : Moves kinds s.link link)
    (calm : ∀ kind, kinds kind → kind.IsCalm) (lacks : ¬ kinds .queue) :
    Performed kinds [] s { s with link } := by
  have keeps := moves.steps.keeps calm
  exact .of_unqueued moves lacks ((Scene.standing_iff.mp keeps.standing).2.2.trans h.attached)
    (keeps.settled h.settled) fun _ _ => moves.mono fun kind within => ⟨calm kind within, within⟩

theorem mono {kinds' : Step.Kind → Prop} {frames : List (List UInt8)}
    (h : Performed kinds frames s t) (wider : ∀ kind, kinds kind → kinds' kind) :
    Performed kinds' frames s t :=
  { h with
    moves := h.moves.mono wider
    calm := fun before after =>
      (h.calm before after).mono fun kind within => ⟨within.1, wider kind within.2⟩ }

end Performed

variable {allowed : Fault → Prop}

theorem wp_onLink {α : Type} {act : Act (Link H d r) α} {post : α → Node H d r → Prop} :
    WP allowed (onLink act) post s ↔
      WP allowed act (fun a link => post a { s with link }) s.link := by
  unfold WP onLink
  cases act s.link <;> rfl

theorem wp_onStation_none {act : Act (Attached H d r) Answer}
    {post : Answer → Node H d r → Prop} (absent : s.station = none) :
    WP allowed (onStation act) post s ↔ post .noStation s := by
  rw [WP, onStation]
  rw [absent]
  rfl

theorem wp_onStation_some {act : Act (Attached H d r) Answer} {post : Answer → Node H d r → Prop}
    {station : Station} (present : s.station = some station) :
    WP allowed (onStation act) post s ↔
      WP allowed act (fun a t => post a { link := t.link, station := some t.station })
        { station, link := s.link } := by
  unfold WP onStation
  rw [present]
  dsimp only
  cases act { station, link := s.link } <;> rfl

theorem Sound.ready (h : s.Sound) {station : Station} (present : s.station = some station) :
    Attached.Ready { station, link := s.link : Attached H d r } :=
  { h with attached := by rw [h.attached, present]; rfl }

/-- What serves a station that is ready is performed by a node. -/
theorem wp_onStation (h : s.Sound) (lacks : ¬ kinds .queue) {act : Act (Attached H d r) Answer}
    (serves : ∀ a : Attached H d r, a.Ready →
      WP Fault.IsStall act (fun _ t => Attached.Served kinds a.link t.link) a) :
    WP Fault.IsStall (onStation act) (fun _ => Performed kinds [] s) s := by
  cases present : s.station with
  | none => exact (wp_onStation_none present).mpr (.of_scene_eq h rfl rfl rfl)
  | some station =>
      refine (wp_onStation_some present).mpr ((serves _ (h.ready present)).mono
        fun _ t served => ?_)
      exact .of_unqueued served.moves lacks served.attached served.settled served.calm

/-- What queues frames at a station does so at a node that has one. -/
theorem wp_onStation_queues {frames : List (List UInt8)} (h : s.Sound)
    {act : Act (Attached H d r) Answer}
    (queues : ∀ a : Attached H d r, a.Ready →
      WP Fault.IsStall act (fun _ t => Attached.Queues frames a.link t.link) a) :
    WP Fault.IsStall (onStation act) (fun _ => Performed (· = .queue) frames s) s := by
  cases present : s.station with
  | none =>
      apply (wp_onStation_none present).mpr
      exact ⟨.refl _, h.attached, h.settled, fun _ _ => .refl _,
        fun some => by simp [present] at some⟩
  | some station =>
      refine (wp_onStation_some present).mpr ((queues _ (h.ready present)).mono
        fun _ t queues => ?_)
      have calm (kind : Step.Kind) (queue : kind = .queue) : kind.IsCalm := .inr (.inl queue)
      obtain ⟨ready, _⟩ := (h.ready present).keeps queues.moves calm
      exact ⟨queues.moves, ready.attached, ready.settled,
        fun _ _ => queues.moves.mono fun kind within => ⟨calm kind within, within⟩,
        fun _ => queues.queued⟩

/-- What serves a station by calm steps leaves the sequencer alone. -/
theorem wp_calm (h : s.Sound) (calm : ∀ kind, kinds kind → kind.IsCalm) (lacks : ¬ kinds .queue)
    {act : Act (Attached H d r) Answer} (does : Attached.Does kinds act) :
    WP Fault.IsStall (onStation act) (fun _ => Performed kinds [] s) s :=
  wp_onStation h lacks fun a ready => (does a ready.free ready.sound).mono
    fun _ _ moves => ready.served moves calm

/-- What only serves interrupts. -/
theorem wp_serves (h : s.Sound) {act : Act (Attached H d r) Answer}
    (does : Attached.Does (· = .interrupt) act) :
    WP Fault.IsStall (onStation act) (fun _ => Performed Step.Kind.IsSteering [] s) s :=
  (wp_calm h (fun _ => .inl) (by simp) does).mono fun _ _ performed =>
    performed.mono fun _ => .inl

/-- What only reads frames. -/
theorem wp_reads (h : s.Sound) {act : Act (Attached H d r) Answer}
    (does : Attached.Does (· = .read) act) :
    WP Fault.IsStall (onStation act) (fun _ => Performed (· = .read) [] s) s :=
  wp_calm h (fun _ read => .inr (.inr (.inl read))) (by simp) does

/-- What only sets the timing. -/
theorem wp_adjusts (h : s.Sound) {act : Act (Attached H d r) Answer}
    (does : Attached.Does (· = .adjust) act) :
    WP Fault.IsStall (onStation act) (fun _ => Performed (· = .adjust) [] s) s :=
  wp_calm h (fun _ adjust => .inr (.inr (.inr adjust))) (by simp) does

variable [Hardware H]

theorem wp_attach (h : s.Sound) (config : Config) :
    WP Fault.IsStall (attach config) (fun _ => Performed Step.Kind.IsFrameless [] s) s := by
  rw [attach, WP.bind_iff, wp_onLink]
  apply (Link.wp_attach config h.free).mono
  rintro outcome link ⟨attaches, used⟩
  have performed {station : Option Station} (attached : link.cell.value.attached = station.isSome) :
      Performed Step.Kind.IsFrameless [] s { link, station } := by
    refine .of_unqueued ⟨attaches.steps h.toSteady, used⟩ (fun queue => queue.1 rfl) attached
      (attaches.settled h.toSteady) fun sending _ => ?_
    simp only [Engine.sending, Bool.and_eq_true] at sending
    exact .of_scene_eq (attaches.eq_of_running h.sound sending.1) used
  cases outcome with
  | error refusal => exact performed ((congrArg Engine.attached attaches.failed).trans h.attached)
  | ok station => exact performed (Scene.standing_iff.mp (attaches.done h.sound)).2.2

theorem wp_detach_none {post : Answer → Node H d r → Prop}
    (absent : s.station = none) : WP allowed detach post s ↔ post .done s := by
  rw [WP, detach]
  rw [absent]
  rfl

theorem wp_detach_some {post : Answer → Node H d r → Prop} {station : Station}
    (present : s.station = some station) :
    WP allowed detach post s ↔
      WP allowed Link.detach (fun _ link => post .done { link }) s.link := by
  unfold WP detach
  rw [present]
  dsimp only
  cases Link.detach s.link <;> rfl

theorem wp_detach (h : s.Sound) :
    WP Fault.IsStall detach (fun _ => Performed Step.Kind.IsSteering [] s) s := by
  cases present : s.station with
  | none => exact (wp_detach_none present).mpr (.of_scene_eq h rfl rfl rfl)
  | some station =>
      refine (wp_detach_some present).mpr ((Link.wp_detach h.free).mono ?_)
      rintro _ link ⟨detaches, used⟩
      obtain ⟨_, stopped, detached⟩ := Scene.standing_iff.mp detaches.standing
      refine .of_unqueued ⟨detaches.steps, used⟩ (by simp [Step.Kind.IsSteering]) detached
        (detaches.settled h.toSteady) fun _ sending => ?_
      have quiet : link.cell.value.running = false := stopped
      exact absurd sending (by simp [Engine.sending, quiet])

/-- Every operation ends, and makes steps of the link. -/
theorem wp_perform (h : s.Sound) (operation : Operation) :
    WP Fault.IsStall (perform operation)
      (fun _ => Performed operation.kinds operation.frames s) s := by
  have unqueued : ¬ Step.Kind.IsSteering .queue := by simp [Step.Kind.IsSteering]
  cases operation with
  | attach config => exact wp_attach h config
  | detach => exact wp_detach h
  | interrupt interrupt =>
      rw [perform, WP.bind_iff, wp_onLink]
      have serves : Link.Does Fault.IsStall Link.free (· = .interrupt)
          (Link.serve interrupt : Act (Link H d r) Unit) := .serve (by rfl) interrupt
      exact (serves s.link h.free h.sound).mono fun _ link moves =>
        (Performed.of_calm h moves (fun _ => .inl) (by simp)).mono fun _ => .inl
  | counters => exact .of_scene_eq h rfl rfl rfl
  | setDirection target enable =>
      apply wp_onStation h unqueued
      intro a ready
      have drains (sending : a.link.cell.value.sending = true) : a.MayDrain Fault.IsStall :=
        ready.mayDrain Fault.isStall_stalled sending
      exact WP.bind (Attached.wp_setDirection ready target enable fun sending _ => drains sending)
        fun _ _ switches => ready.served_switched switches
  | setBreakTime us | setMarkTime us | setPeriod us =>
      exact wp_adjusts h ((Attached.Does.applyTiming (by rfl) _).bind fun _ => .pure _)
  | timing => exact wp_serves h (Attached.Does.timing.bind fun _ => .pure _)
  | config => exact wp_serves h (Attached.Does.get.bind fun _ => .pure _)
  | direction => exact wp_serves h (Attached.Does.direction.bind fun _ => .pure _)
  | sendData frame =>
      apply wp_onStation_queues h
      intro a ready
      exact WP.bind (Attached.wp_sendData ready.free frame) fun _ _ queues => queues
  | sendSlots slots =>
      apply wp_onStation_queues h
      intro a ready
      exact WP.bind (Attached.wp_sendSlots ready.free slots) fun _ _ queues => queues
  | takeDmx => exact wp_reads h (.bind (.takeDmx rfl) fun _ => .pure _)
  | peekDmx => exact wp_reads h (Attached.Does.peekDmx.bind fun _ => .pure _)
  | takeChangedDmx => exact wp_reads h (.bind (.takeChangedDmx rfl) fun _ => .pure _)
  | takeRdm => exact wp_reads h (.bind (.takeRdm rfl) fun _ => .pure _)
  | peekRdm => exact wp_reads h (Attached.Does.peekRdm.bind fun _ => .pure _)
  | flush => exact wp_reads h (.bind (.flush rfl) fun _ => .pure _)
  | statistics => exact wp_serves h ((Attached.Does.statistics (by rfl)).bind fun _ => .pure _)
  | updatesPerSecond =>
      exact wp_serves h ((Attached.Does.updatesPerSecond (by rfl)).bind fun _ => .pure _)
  | resetCounters => exact wp_serves h (Attached.Does.resetCounters.bind fun _ => .pure _)
  | transaction => exact wp_serves h (Attached.Does.get.bind fun _ => .pure _)
  | sendMessage message spacing =>
      apply wp_onStation h unqueued
      intro a ready
      apply WP.bind (Attached.wp_sendMessage (fun _ _ _ => mayWait_isStall) ready spacing)
      rintro answer _ ⟨_, _, dispatches⟩
      cases answer <;> exact ready.served_dispatched dispatches
  | sendResponse message =>
      apply wp_onStation h unqueued
      intro a ready
      exact WP.bind (Attached.wp_sendResponse (fun _ _ _ => mayWait_isStall) ready)
        fun _ _ dispatches => ready.served_dispatched dispatches
  | sendDiscoveryResponse uid =>
      apply wp_onStation h unqueued
      intro a ready
      exact WP.bind (Attached.wp_sendDiscoveryResponse (fun _ => mayWait_isStall) ready uid)
        fun _ _ dispatches => ready.served_dispatched dispatches

omit [Hardware H] in
theorem Sound.powerUp (hardware : H) : (powerUp hardware : Node H d r).Sound where
  sound := ⟨.of_idle rfl rfl, Transmitter.WellFormed.powerUp, nofun, rfl⟩
  wired := .stopped rfl rfl rfl nofun rfl rfl rfl nofun (fun _ => rfl) rfl rfl
  settled := ⟨rfl, fun _ => rfl, nofun⟩
  free := rfl
  attached := rfl

theorem perform_of_act {operation : Operation} (acted : s.act (.perform operation) = .ok t) :
    ∃ answer, perform operation s = .ok (answer, t) := by
  rw [Node.act] at acted
  obtain ⟨outcome, ended, left⟩ := Checked.bind_ok acted
  cases left
  exact ⟨outcome.1, ended⟩

theorem act_of_perform {operation : Operation} {answer : Answer}
    (ended : perform operation s = .ok (answer, t)) : s.act (.perform operation) = .ok t := by
  rw [Node.act, ended]
  rfl

/-- An action ends as its operation does. -/
theorem Sound.act (h : s.Sound) {action : Action H} (acted : s.act action = .ok t) :
    Performed action.kinds action.frames s t := by
  cases action with
  | disturb change =>
      cases acted
      exact .of_scene_eq h rfl rfl rfl
  | perform operation =>
      obtain ⟨answer, ended⟩ := perform_of_act acted
      exact (wp_perform h operation).elim ended

/-- An action that does not end waits on a clock that stands still. -/
theorem Sound.act_stalls (h : s.Sound) {action : Action H} {fault : Fault}
    (stopped : s.act action = .error fault) : fault.IsStall := by
  cases action with
  | disturb change => cases stopped
  | perform operation =>
      rw [Node.act] at stopped
      cases ended : perform operation s with
      | error other =>
          rw [ended] at stopped
          cases stopped
          exact (wp_perform h operation).allows ended
      | ok outcome =>
          rw [ended] at stopped
          cases stopped

end Node

end Dmx512
