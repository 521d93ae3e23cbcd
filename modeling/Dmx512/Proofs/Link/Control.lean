import Dmx512.Proofs.Link.Spec
import Dmx512.Proofs.Link.Reception
import Dmx512.Proofs.Link.Transmission
import Dmx512.Proofs.Link.Turning

/-!
# Starting, stopping and attaching

What the foreground does to the sequencers of a link makes of it what the relations
of control say. None of it can fail but for the pin, and none of it waits.
-/

namespace Dmx512.Link

open Act

variable {H : Type} [Hardware H] {d r : Nat} {allowed : Fault → Prop} {use : Nat × Bool}
variable {s t u : Link H d r}

/-- What became of a link from `s` to `t` is told by a relation of scenes, and its
engine is in use as before. -/
structure Leads (relation : Scene d r → Scene d r → Prop) (s t : Link H d r) : Prop where
  scene : relation s.scene t.scene
  uses : t.uses = s.uses

omit [Hardware H] in
theorem Leads.moves {relation : Scene d r → Scene d r → Prop} {kinds : Step.Kind → Prop}
    (h : Leads relation s t) (steps : relation s.scene t.scene → Steps kinds s.scene t.scene) :
    Moves kinds s t :=
  ⟨steps h.scene, h.uses⟩

omit [Hardware H] in
def asked (s : Link H d r) : Link H d r :=
  { s with cell := { s.cell with
    value := { s.cell.value with transmitter := s.cell.value.transmitter.requestStop } } }

theorem ensures_start :
    Ensures allowed use (fun _ => True) (start : Act (Link H d r) Unit)
      (fun _ s t => ∃ first second, t = s.start first second) := by
  intro s _ _
  rw [start]
  simp only [WP.bind_iff, wp_getEngine, wp_modifyEngine]
  cases direction : s.cell.value.direction with
  | input =>
      rw [startSequencer]
      simp only [WP.bind_iff, wp_modifyEngine, wp_order]
      exact ⟨⟨_, _, (Scene.start_input (s := s.scene) _ _ direction).symm⟩, rfl⟩
  | output =>
      rw [startSequencer]
      simp only [WP.bind_iff, wp_modifyTransmitter, wp_readClock, setPace_eq, wp_order]
      exact ⟨⟨_, _, (Scene.start_output (s := s.scene) _ _ direction).symm⟩, rfl⟩

theorem ensures_halt :
    Ensures allowed use (fun _ => True) (halt : Act (Link H d r) Unit)
      (fun _ s t => ∃ first second third, t = s.halt first second third) := by
  intro s _ _
  rw [halt]
  simp only [WP.bind_iff, wp_getEngine, wp_modifyEngine]
  cases direction : s.cell.value.direction with
  | input =>
      rw [stopSequencer]
      simp only [WP.bind_iff, wp_order, wp_modifyEngine]
      apply wp_syncWatchdog.mono
      rintro _ t ⟨second, synced, used⟩
      refine ⟨⟨s.line.now, second, 0, ?_⟩, used⟩
      rw [Scene.halt_input _ _ _ direction]
      change t.scene.withRunning false = _
      rw [synced]
      rfl
  | output =>
      rw [stopSequencer]
      simp only [WP.bind_iff, wp_order, wp_modifyTransmitter, setPace_eq]
      exact ⟨⟨_, _, _, (Scene.halt_output (s := s.scene) _ _ _ direction).symm⟩, rfl⟩

/-- A link that was halted. -/
theorem Leads.of_halt (used : s.uses = free) (halted : critical halt s = .ok ((), t)) :
    s.Leads (fun m u => ∃ first second third, u = m.halt first second third) t := by
  have halts : Ensures (fun _ => False) free (fun _ => True) (critical halt : Act (Link H d r) Unit)
      (fun _ m u => ∃ first second third, u = m.halt first second third) := ensures_halt.critical
  obtain ⟨scene, uses⟩ := (halts s used trivial).elim halted
  exact ⟨scene, uses⟩

theorem ensures_launch (enable : Bool) :
    Ensures allowed use (fun _ => True) (Act.onlyIf enable start : Act (Link H d r) Unit)
      (fun _ s t => ∃ first second, t = s.launch enable first second) := by
  intro s used _
  cases enable with
  | true => exact ensures_start s used trivial
  | false => exact ⟨⟨0, 0, rfl⟩, rfl⟩

theorem wp_drive {high : Bool} {post : Bool → Link H d r → Prop}
    (h : ∀ driven time hardware, post driven
      { s with line := { hardware, journal := ⟨time, .pin high driven⟩ :: s.line.journal } }) :
    WP allowed (onLine (Line.drive high)) post s :=
  h _ _ _

/-- A link whose pin has taken the level of a direction is turned to it. -/
theorem ensures_turn (target : Direction) (enable : Bool) {s : Scene d r} (driven : Micros) :
    Ensures allowed use (fun t => t = s.note driven (.pin target.pinLevel true))
      (do
        modifyEngine fun e => { e with direction := target }
        noteNow (.turned target)
        Act.onlyIf enable start : Act (Link H d r) Unit)
      (fun _ _ t => s.Turns target enable t) := by
  intro link used driven'
  simp only [WP.bind_iff, wp_modifyEngine]
  let turned : Link H d r := { link with
    cell := { link.cell with value := { link.cell.value with direction := target } }
    line := { link.line with journal := ⟨link.line.now, .turned target⟩ :: link.line.journal } }
  apply (ensures_launch enable turned used trivial).mono
  rintro _ t ⟨⟨first, second, launched⟩, used'⟩
  have turns : turned.scene = s.turn driven link.line.now target := by
    change ({ link.scene with
      engine := { link.scene.engine with direction := target } } : Scene d r).note _ _ = _
    rw [driven']
    rfl
  exact ⟨launched ▸ turns ▸ ⟨driven, link.line.now, first, second⟩, used'⟩

omit [Hardware H] in
theorem ensures_claim :
    Ensures allowed free (fun _ => True) (claim : Act (Link H d r) Bool)
      (fun answer s t => answer = s.engine.attached ∧ t = s.claim) :=
  Ensures.critical fun _ _ _ => ⟨⟨rfl, rfl⟩, rfl⟩

omit [Hardware H] in
theorem ensures_leave :
    Ensures allowed free (fun _ => True)
      (critical (modifyEngine fun e => { e with attached := false }) : Act (Link H d r) Unit)
      (fun _ s t => t = s.leave) :=
  Ensures.critical fun _ _ _ => ⟨rfl, rfl⟩

theorem ensures_setUp (config : Config) {s : Scene d r} (driven : Micros) :
    Ensures allowed free (fun t => t = s.note driven (.pin config.direction.pinLevel true))
      (setUp config : Act (Link H d r) Unit)
      (fun _ _ t => ∃ transmitter, s.engine.transmitter.configure config = .ok transmitter ∧
        (s.withTransmitter transmitter).Turns config.direction config.dataEnabled t) := by
  apply Ensures.critical
  intro link used driven'
  obtain ⟨timing, configured⟩ := link.cell.value.transmitter.configure_ok config
  rw [WP.bind_iff, wp_getTransmitter, configured, WP.bind_iff, WP.lift_ok_iff, WP.bind_iff,
    wp_setTransmitter]
  let next : Link H d r := { link with cell := { link.cell with value := { link.cell.value with
    transmitter := { link.cell.value.transmitter with timing } } } }
  have same : link.cell.value.transmitter = s.engine.transmitter :=
    congrArg (·.engine.transmitter) driven'
  have driven'' : next.scene = (s.withTransmitter { s.engine.transmitter with timing }).note driven
      (.pin config.direction.pinLevel true) := by
    change link.scene.withTransmitter { link.cell.value.transmitter with timing } = _
    rw [driven', same]
    rfl
  apply (ensures_turn config.direction config.dataEnabled driven next used driven'').mono
  rintro _ t ⟨turns, used'⟩
  exact ⟨⟨_, same ▸ configured, turns⟩, used'⟩

theorem wp_attach (config : Config) (used : s.uses = free) :
    WP allowed (attach config)
      (fun outcome t => s.Leads (·.Attaches config outcome ·) t) s := by
  rw [attach]
  apply WP.bind (ensures_claim s used trivial)
  rintro answer t ⟨⟨answered, claimed⟩, used'⟩
  subst answered
  cases present : s.scene.engine.attached with
  | true =>
      have same : t.scene = s.scene := by
        rw [claimed, Scene.claim, ← present]
      refine ⟨?_, used'⟩
      rw [same]
      exact .occupied present
  | false =>
      rw [if_neg Bool.false_ne_true, WP.bind_iff]
      apply wp_drive
      intro driven time hardware
      let drives : Link H d r := { t with line :=
        { hardware, journal := ⟨time, .pin config.direction.pinLevel driven⟩ :: t.line.journal } }
      have noted : drives.scene =
          s.scene.claim.note time (.pin config.direction.pinLevel driven) := by
        rw [← claimed]
        rfl
      have uses : drives.uses = free := used'.trans used
      cases driven with
      | true =>
          rw [if_pos rfl]
          apply WP.bind (ensures_setUp config time drives uses noted)
          rintro _ u ⟨⟨transmitter, configured, turns⟩, used''⟩
          exact ⟨.attaches present configured turns, used''.trans used'⟩
      | false =>
          rw [if_neg Bool.false_ne_true]
          apply WP.bind (ensures_leave drives uses trivial)
          rintro _ u ⟨left, used''⟩
          refine ⟨?_, used''.trans used'⟩
          have engine : s.scene.claim.leave = s.scene := by rw [Scene.claim, Scene.leave, ← present]
          have refused : u.scene = s.scene.note time (.pin config.direction.pinLevel false) := by
            rw [left, noted, ← engine]
            rfl
          exact refused ▸ .refused present time

/-- A link that has a station is left exactly as it is. -/
theorem wp_attach_occupied (config : Config) (used : s.uses = free)
    (present : s.cell.value.attached = true) :
    WP allowed (attach config)
      (fun outcome t => outcome = .error (.setup .occupied) ∧ t = s) s := by
  obtain ⟨line, ⟨engine, readers, exclusive⟩, dmxStore, rdmStore⟩ := s
  obtain ⟨rfl, rfl⟩ := Prod.mk.inj used
  rw [attach, WP.bind_iff, claim, wp_critical used]
  simp only [WP.bind_iff, wp_getEngine, wp_modifyEngine, WP.pure_iff]
  rw [if_pos present]
  have same : { engine with attached := true } = engine := by rw [← present]
  refine ⟨rfl, ?_⟩
  simp only [Cell.leave, same]

/-- Whether a station attaches where there is none is for the pin to tell. -/
theorem wp_attach_pin (config : Config) (used : s.uses = free)
    (absent : s.cell.value.attached = false) :
    WP (fun _ => True) (attach config) (fun outcome _ => outcome =
      if (Hardware.drive config.direction.pinLevel s.line.hardware).1 then .ok { config }
      else .error (.line .pin)) s := by
  rw [attach, WP.bind_iff, claim, wp_critical used]
  simp only [WP.bind_iff, wp_getEngine, wp_modifyEngine, WP.pure_iff]
  rw [absent, if_neg Bool.false_ne_true, WP.bind_iff, wp_onLine]
  change WP _ (if (Hardware.drive config.direction.pinLevel s.line.hardware).1 = true then _
    else _) _ _
  split <;> exact WP.bind (WP.unasked _ _) fun _ _ _ => rfl

theorem wp_detach (used : s.uses = free) :
    WP allowed detach (fun _ t => s.Leads Scene.Detaches t) s := by
  have detaches : Ensures allowed (0, true) (fun _ => True)
      (do
        Act.onlyIf (← getEngine).running halt
        modifyEngine fun e => { e with attached := false } : Act (Link H d r) Unit)
      (fun _ => Scene.Detaches) := by
    intro s used _
    simp only [WP.bind_iff, wp_getEngine, WP.onlyIf_iff, wp_modifyEngine]
    constructor
    · intro running
      apply (ensures_halt s used trivial).mono
      rintro _ t ⟨⟨first, second, third, halted⟩, used'⟩
      refine ⟨?_, used'⟩
      change s.scene.Detaches t.scene.leave
      rw [halted]
      exact .halts running first second third
    · intro stopped
      exact ⟨.still stopped, rfl⟩
  exact (detaches.critical s used trivial).mono fun _ _ detached => ⟨detached.1, detached.2⟩

end Dmx512.Link
