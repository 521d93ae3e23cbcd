import Dmx512.Proofs.Station.Basic
import Dmx512.Station.Direction

/-!
# Turning the line

A station that stops its sequencer, turns its line or switches it makes of the link
what the relations of control say. Whatever happens on the way, the line stands as
asked for, or its pin has refused and it is stopped; and a sequencer that sends
before and after was never touched.
-/

namespace Dmx512.Attached

open Act Link

variable {H : Type} [Hardware H] {d r : Nat} {allowed : Fault → Prop} {s : Attached H d r}

/-- What a station needs to control its link. -/
structure Ready (s : Attached H d r) : Prop extends s.link.scene.Steady where
  free : s.link.uses = Link.free
  attached : s.link.cell.value.attached = true

namespace Ready

variable {t : Attached H d r}

omit [Hardware H] in
/-- A station stays ready where its link stays steady and it stays attached. -/
theorem of_steady (h : s.Ready) (steady : t.link.scene.Steady) (uses : t.link.uses = s.link.uses)
    (attached : t.link.cell.value.attached = s.link.cell.value.attached) : t.Ready :=
  { steady with free := uses.trans h.free, attached := attached.trans h.attached }

omit [Hardware H] in
/-- What leaves the sequencers alone keeps a station ready and its link standing. -/
theorem keeps {kinds : Step.Kind → Prop} (h : s.Ready) (moves : Moves kinds s.link t.link)
    (calm : ∀ kind, kinds kind → kind.IsCalm) :
    t.Ready ∧ t.link.scene.standing = s.link.scene.standing := by
  have standing : t.link.scene.standing = s.link.scene.standing :=
    moves.steps.standing_eq fun control => by simpa [Step.Kind.IsCalm] using calm _ control
  exact ⟨h.of_steady (moves.steps.steady calm h.toSteady) moves.uses
    (Scene.standing_iff.mp standing).2.2, standing⟩

omit [Hardware H] in
theorem of_scene_eq (h : s.Ready) (same : t.link.scene = s.link.scene)
    (uses : t.link.uses = s.link.uses) : t.Ready :=
  h.of_steady (same ▸ h.toSteady) uses (congrArg (·.engine.attached) same)

omit [Hardware H] in
theorem served {kinds : Step.Kind → Prop} (h : s.Ready) (moves : Moves kinds s.link t.link)
    (calm : ∀ kind, kinds kind → kind.IsCalm) : Served kinds s.link t.link := by
  obtain ⟨ready, _⟩ := h.keeps moves calm
  exact ⟨moves, ready.attached, ready.settled,
    fun _ _ => moves.mono fun kind within => ⟨calm kind within, within⟩⟩

end Ready

/-- A look at a frame going out reads the line status only where the sequence is between two
frames. -/
theorem wp_transmitBusy {link : Link H d r} {post : Bool → Link H d r → Prop}
    (used : link.uses = free)
    (goesOut : link.cell.value.transmitter.isBusy = true → post true link)
    (between : link.cell.value.transmitter.isBusy = false → ∀ status next,
      Line.sample link.line = .ok (status, next) →
        post (!status.txIdle) { link with line := next }) :
    WP allowed transmitBusy post link := by
  obtain ⟨line, ⟨value, readers, exclusive⟩, dmxStore, rdmStore⟩ := link
  obtain ⟨rfl, rfl⟩ := Prod.mk.inj used
  rw [transmitBusy, wp_critical used]
  simp only [WP.bind_iff, wp_getTransmitter, WP.ite_iff, WP.pure_iff, Bool.not_eq_true]
  exact ⟨goesOut, fun rests => between rests _ _ rfl⟩

theorem Does.transmitBusy {kinds : Step.Kind → Prop} (within : kinds .interrupt) :
    Link.Does Fault.IsStall free kinds (Attached.transmitBusy : Act (Link H d r) Bool) := by
  intro s used _
  apply wp_transmitBusy used
  · exact fun _ => .refl s
  · rintro _ status _ ⟨⟩
    exact .step (.sample _ _) within rfl

omit [Hardware H] in
/-- Only the output is asked to end its sequence. -/
theorem wp_requestStop (used : s.link.uses = free) :
    WP allowed requestStop (fun direction t => direction = s.link.cell.value.direction ∧
      t = if direction = .output then { s with link := s.link.asked } else s) s := by
  obtain ⟨station, line, ⟨value, readers, exclusive⟩, dmxStore, rdmStore⟩ := s
  obtain ⟨rfl, rfl⟩ := Prod.mk.inj used
  refine wp_onLink.mpr ((wp_critical used).mpr ?_)
  simp only [WP.bind_iff, wp_getEngine, WP.onlyIf_iff, wp_modifyTransmitter, WP.pure_iff,
    beq_iff_eq, beq_eq_false_iff_ne]
  exact ⟨fun output => ⟨trivial, (if_pos output).symm⟩,
    fun other => ⟨trivial, (if_neg other).symm⟩⟩

def drainTimeout (s : Attached H d r) : Micros :=
  s.station.config.drainTimeoutFor s.link.cell.value.transmitter.timing

/-- A sequence drains for as long as the station allows. -/
theorem wp_drain (used : s.link.uses = free) {post : Unit → Attached H d r → Prop} :
    WP allowed drain post s ↔ WP allowed (Link.waitWhile transmitBusy s.drainTimeout)
      (fun _ link => post () { s with link }) s.link := by
  obtain ⟨station, line, ⟨value, readers, exclusive⟩, dmxStore, rdmStore⟩ := s
  obtain ⟨rfl, rfl⟩ := Prod.mk.inj used
  rw [drain, WP.bind_iff, timing, onEngine, wp_onLink, wp_critical used]
  simp only [WP.bind_iff, wp_getTransmitter, WP.pure_iff, WP.get_iff, wp_onLink]
  exact Iff.rfl

/-- The drain of a sequence that is asked to end serves interrupts, and stops with a fault
only where that is allowed. -/
def MayDrain (allowed : Fault → Prop) (s : Attached H d r) : Prop :=
  WP allowed (Link.waitWhile transmitBusy s.drainTimeout)
    (fun _ m => Moves (· = .interrupt) s.link.asked m) s.link.asked

omit [Hardware H] in
theorem Ready.sound_asked (h : s.Ready) (sending : s.link.cell.value.sending = true) :
    s.link.asked.scene.Sound :=
  (Step.requestStop (s := s.link.scene) (Engine.sending_iff.mp sending).1).sound h.sound

/-- Where a wait may stall, a drain may. -/
theorem Ready.mayDrain (h : s.Ready) (stalls : allowed .stalled)
    (sending : s.link.cell.value.sending = true) : s.MayDrain allowed := by
  have drains : Link.Does Fault.IsStall Link.free (· = .interrupt)
      (Link.waitWhile transmitBusy s.drainTimeout : Act (Link H d r) Bool) :=
    .waitWhile (by rfl) (Does.transmitBusy (by rfl)) _
  exact (drains s.link.asked h.free (h.sound_asked sending)).allow (Fault.IsStall.allows stalls)

/-- The sequencer of an output is asked to end, and halted once the drain is over. -/
theorem wp_stopSequencer_output (h : s.Ready) (output : s.link.cell.value.direction = .output)
    {drained : Bool → Link H d r → Prop}
    (drains : WP allowed (Link.waitWhile transmitBusy s.drainTimeout)
      (fun inTime m => m.uses = free ∧ drained inTime m) s.link.asked) :
    WP allowed stopSequencer (fun _ t => t.link.uses = free ∧ ∃ inTime m, drained inTime m ∧
      Link.critical Link.halt m = .ok ((), t.link)) s := by
  apply WP.bind (wp_requestStop h.free)
  rintro direction t ⟨rfl, rfl⟩
  rw [if_pos output, WP.bind_iff, WP.onlyIf_iff]
  refine ⟨fun _ => ?_, fun other => by simp [output] at other⟩
  apply (wp_drain (s := { s with link := s.link.asked }) h.free).mpr
  apply drains.mono
  rintro inTime m ⟨used, drained'⟩
  apply wp_onLink.mpr
  apply (ensures_halt.critical m used trivial).ran.mono
  rintro _ link ⟨halted, _, used'⟩
  exact ⟨used'.trans used, inTime, m, drained', halted⟩

/-- However long a frame takes to drain, the sequencer is stopped in the end. -/
theorem wp_stopSequencer (h : s.Ready)
    (may : s.link.cell.value.direction = .output → s.MayDrain allowed) :
    WP allowed stopSequencer (fun _ t => s.link.Leads Scene.Stops t.link) s := by
  cases direction : s.link.cell.value.direction with
  | input =>
      apply WP.bind (wp_requestStop h.free)
      rintro _ t ⟨rfl, rfl⟩
      rw [if_neg (by simp [direction]), WP.bind_iff, WP.onlyIf_iff]
      refine ⟨fun other => by simp [direction] at other, fun _ => ?_⟩
      refine (wp_onEngine ensures_halt h.free trivial).mono ?_
      rintro _ u ⟨⟨first, second, third, halted⟩, used⟩
      exact ⟨halted ▸ .input direction first second third, used⟩
  | output =>
      have drains : WP allowed (Link.waitWhile transmitBusy s.drainTimeout)
          (fun _ m => m.uses = free ∧ Moves (· = .interrupt) s.link.asked m) s.link.asked :=
        (may direction).mono fun _ m moves => ⟨moves.uses.trans h.free, moves⟩
      apply (wp_stopSequencer_output h direction drains).mono
      rintro _ t ⟨_, _, m, moves, stopped⟩
      obtain ⟨⟨first, second, third, halted⟩, used⟩ :=
        Leads.of_halt (moves.uses.trans h.free) stopped
      refine ⟨?_, used.trans moves.uses⟩
      exact halted ▸ .output (s := s.link.scene) direction moves.steps first second third

omit [Hardware H] in
/-- A station knows how its line stands, and looks at it without a trace. -/
theorem wp_direction (used : s.link.uses = free) :
    WP allowed direction (fun answer t =>
      answer = (s.link.cell.value.direction, s.link.cell.value.running) ∧ t = s) s := by
  refine wp_onLink.mpr ((wp_observe used).mpr ?_)
  exact ⟨rfl, rfl⟩

/-- A sequencer in the present direction is started, stopped or left alone. -/
theorem wp_settle (h : s.Ready) (enable : Bool)
    (may : s.link.cell.value.sending = true → enable = false → s.MayDrain allowed) :
    WP allowed (settle s.link.cell.value.running enable) (fun _ t => s.link.Leads
      (·.Switches s.link.cell.value.direction enable (.ok ()) ·) t.link) s := by
  cases running : s.link.cell.value.running <;> cases enable
  · exact ⟨.keeps rfl running, rfl⟩
  · refine (wp_onEngine ensures_start h.free trivial).mono ?_
    rintro _ t ⟨⟨first, second, started⟩, used⟩
    refine ⟨?_, used⟩
    rw [started]
    exact .starts (s := s.link.scene) rfl running rfl first second
  · have drains (output : s.link.cell.value.direction = .output) : s.MayDrain allowed :=
      may (Engine.sending_iff.mpr ⟨output, running⟩) rfl
    exact (wp_stopSequencer h drains).mono
      fun _ _ stops => ⟨.stops rfl running rfl stops.scene, stops.uses⟩
  · exact ⟨.keeps rfl running, rfl⟩

/-- A line that runs is stopped. -/
theorem wp_stopRunning (h : s.Ready)
    (may : s.link.cell.value.sending = true → s.MayDrain allowed) :
    WP allowed (Act.onlyIf s.link.cell.value.running stopSequencer)
      (fun _ t => s.link.Leads Scene.Quiets t.link) s := by
  cases running : s.link.cell.value.running with
  | true =>
      have drains (output : s.link.cell.value.direction = .output) : s.MayDrain allowed :=
        may (Engine.sending_iff.mpr ⟨output, running⟩)
      exact (wp_stopSequencer h drains).mono
        fun _ _ stops => ⟨.stops running stops.scene, stops.uses⟩
  | false => exact ⟨.still running, rfl⟩

/-- The pin is driven first, and the link follows it. -/
theorem wp_turn (used : s.link.uses = free) (target : Direction) (enable : Bool) :
    WP allowed (turn target enable) (fun outcome t =>
      (outcome = .ok () ∧ s.link.scene.Turns target enable t.link.scene ∨
        outcome = .error (.line .pin) ∧ ∃ time,
          t.link.scene = s.link.scene.note time (.pin target.pinLevel false)) ∧
      t.link.uses = s.link.uses) s := by
  rw [turn, WP.bind_iff, wp_onLink]
  apply wp_drive
  intro driven time hardware
  let drives : Link H d r := { s.link with line :=
    { hardware, journal := ⟨time, .pin target.pinLevel driven⟩ :: s.link.line.journal } }
  cases driven with
  | false => exact ⟨.inr ⟨rfl, time, rfl⟩, rfl⟩
  | true =>
      rw [if_pos rfl, WP.bind_iff, takeDirection, WP.bind_iff]
      refine (wp_onEngine (s := { s with link := drives })
        (ensures_turn (s := s.link.scene) target enable time) used rfl).mono ?_
      rintro _ t ⟨turns, used'⟩
      exact ⟨.inl ⟨rfl, turns⟩, used'⟩

/-- A line is switched as asked for. Only a sequence that is not to go on drains. -/
theorem wp_setDirection (h : s.Ready) (target : Direction) (enable : Bool)
    (may : s.link.cell.value.sending = true → (target = .output → enable = false) →
      s.MayDrain allowed) :
    WP allowed (setDirection target enable)
      (fun outcome t => s.link.Leads (·.Switches target enable outcome ·) t.link) s := by
  rw [setDirection]
  apply WP.bind (wp_direction h.free)
  rintro answer t ⟨rfl, rfl⟩
  dsimp only
  rw [WP.ite_iff]
  constructor
  · intro present
    apply WP.bind (wp_settle h enable fun sending unwanted => may sending fun _ => unwanted)
    rintro _ u ⟨switches, used⟩
    exact ⟨present ▸ switches, used⟩
  · intro other
    have turns (sending : t.link.cell.value.sending = true) : t.MayDrain allowed := by
      apply may sending
      rintro rfl
      exact absurd (Engine.sending_iff.mp sending).1.symm other
    apply WP.bind (wp_stopRunning h turns)
    rintro _ u ⟨quiets, used⟩
    apply (wp_turn (used.trans h.free) target enable).mono
    rintro outcome v ⟨turned, used'⟩
    refine ⟨?_, used'.trans used⟩
    rcases turned with ⟨rfl, turns⟩ | ⟨rfl, time, refused⟩
    · exact .turns other quiets turns
    · exact refused ▸ .refused other quiets time

/-- A line that stands as asked for is left alone. -/
theorem wp_setDirection_standing (used : s.link.uses = free) {target : Direction} {enable : Bool}
    (stands : (s.link.cell.value.direction, s.link.cell.value.running) = (target, enable)) :
    WP allowed (setDirection target enable) (fun outcome t => outcome = .ok () ∧
      t = { s with station := { s.station with config :=
        { s.station.config with dataEnabled := enable } } }) s := by
  obtain ⟨present, settled⟩ := Prod.mk.inj stands
  rw [setDirection]
  apply WP.bind (wp_direction used)
  rintro answer t ⟨rfl, rfl⟩
  dsimp only
  rw [if_pos present.symm, settled]
  cases enable <;> exact ⟨rfl, rfl⟩

namespace Ready

variable {target : Direction} {enable : Bool} {outcome : Outcome Unit} {t : Attached H d r}

omit [Hardware H] in
/-- A station that switched its line is ready again. -/
theorem switched (h : s.Ready)
    (leads : s.link.Leads (·.Switches target enable outcome ·) t.link) : t.Ready :=
  h.of_steady (leads.scene.steady' h.toSteady h.attached) leads.uses leads.scene.attached

omit [Hardware H] in
/-- Switching the line leaves a sequencer alone that sends before and after. -/
theorem served_switched (h : s.Ready)
    (leads : s.link.Leads (·.Switches target enable outcome ·) t.link) :
    Served Step.Kind.IsSteering s.link t.link where
  moves := leads.moves fun switches => switches.steps h.toSteady h.attached
  attached := leads.scene.attached.trans h.attached
  settled := leads.scene.settled h.toSteady h.attached
  calm before after := .of_scene_eq (leads.scene.eq_of_sending before after) leads.uses

end Ready

end Dmx512.Attached
