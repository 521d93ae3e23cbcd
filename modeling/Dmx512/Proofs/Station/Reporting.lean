import Dmx512.Proofs.Station.Rdm

/-!
# What a station tells of its line

The configuration of a station tells the direction of its line and whether its sequencer runs.
It is set where the line is, unless the pin refuses to turn a line whose sequencer has been
stopped: that it was, is not told. What else a station does either leaves both what is told
and how the line stands, or makes them the same.
-/

namespace Dmx512

/-- What a configuration tells of the line: its direction, and whether its sequencer runs. -/
def Config.line (config : Config) : Direction × Bool := (config.direction, config.dataEnabled)

/-- How the line of an engine stands: its direction, and whether its sequencer runs. -/
def Engine.line (e : Engine) : Direction × Bool := (e.direction, e.running)

/-- The pin has refused a level. -/
def Journal.PinRefused (journal : Journal) : Prop :=
  ∃ entry ∈ journal, ∃ level, entry.event = .pin level false

/-- What is told of a line is its direction, and a sequencer that runs. -/
def Tells (told : Option (Direction × Bool)) (line : Direction × Bool) : Prop :=
  ∀ tells ∈ told, tells.1 = line.1 ∧ (line.2 = true → tells.2 = true)

/-- What is told of a line is how it stands. -/
def Reports (told : Option (Direction × Bool)) (line : Direction × Bool) : Prop :=
  ∀ tells ∈ told, tells = line

/-- What becomes of how a line stands, and of what is told of it. -/
inductive Retells (refused : Prop) (told : Option (Direction × Bool)) (line : Direction × Bool)
    (told' : Option (Direction × Bool)) (line' : Direction × Bool) : Prop where
  /-- Neither changes. -/
  | stays (same : told' = told) (stands : line' = line)
  /-- The line then stands as is told. -/
  | reports (reports : Reports told' line')
  /-- The sequencer was stopped and the pin has refused; the former is not told. -/
  | stopped (refused : refused) (running : line.2 = true) (stopped : line' = (line.1, false))
      (same : told' = told)

namespace Retells

variable {refused refused' : Prop} {told told' : Option (Direction × Bool)}
variable {line line' : Direction × Bool}

theorem mono (h : Retells refused told line told' line') (imp : refused → refused') :
    Retells refused' told line told' line' := by
  cases h with
  | stays same stands => exact .stays same stands
  | reports reports => exact .reports reports
  | stopped evidence running stopped same => exact .stopped (imp evidence) running stopped same

/-- Whatever becomes of a line, its direction is told, and a sequencer that runs. -/
theorem tells (h : Retells refused told line told' line') (before : Tells told line) :
    Tells told' line' := by
  cases h with
  | stays same stands => exact same ▸ stands ▸ before
  | reports reports =>
      intro tells mem
      rw [reports tells mem]
      exact ⟨rfl, id⟩
  | stopped _ _ stopped same =>
      intro tells mem
      rw [stopped]
      exact ⟨(before tells (same ▸ mem)).1, nofun⟩

/-- A line that stands as is told goes on to, unless the pin refuses. -/
theorem reports_or (h : Retells refused told line told' line') (before : Reports told line) :
    Reports told' line' ∨ refused ∧ line.2 = true ∧ line' = (line.1, false) ∧ told' = told := by
  cases h with
  | stays same stands => exact .inl (same ▸ stands ▸ before)
  | reports reports => exact .inl reports
  | stopped evidence running stopped same => exact .inr ⟨evidence, running, stopped, same⟩

end Retells

namespace Attached

open Act Link Standard

variable {H : Type} {d r : Nat} {s t u : Attached H d r} {refused : Prop}

/-- What becomes of the line of a station, and of what the station tells of it. -/
def Retells (refused : Prop) (s t : Attached H d r) : Prop :=
  Dmx512.Retells refused (some s.station.config.line) s.link.engine.line
    (some t.station.config.line) t.link.engine.line

/-- What is told of a line follows it over any time in which neither changes. -/
theorem Retells.behind (h : t.Retells refused u)
    (same : t.station.config.line = s.station.config.line)
    (stands : t.link.engine.line = s.link.engine.line) : s.Retells refused u := by
  rw [Attached.Retells, ← same, ← stands]
  exact h

/-- How a line that was switched stands, and what its station tells of it. -/
inductive Turned (target : Direction) (enable : Bool) (s : Attached H d r) :
    Outcome Unit → Attached H d r → Prop where
  | done {t : Attached H d r} (stands : t.link.engine.line = (target, enable))
      (told : t.station.config.line = (target, enable)) : Turned target enable s (.ok ()) t
  | refused {t : Attached H d r} (stopped : t.link.engine.line = (s.link.engine.direction, false))
      (kept : t.station = s.station) (pin : t.link.line.journal.PinRefused) :
      Turned target enable s (.error (.line .pin)) t

variable {target : Direction} {enable : Bool} {outcome : Outcome Unit}

theorem Turned.retells (h : s.Turned target enable outcome t) :
    s.Retells (outcome = .error (.line .pin) ∧ t.link.line.journal.PinRefused) t := by
  cases h with
  | done stands told =>
      refine .reports ?_
      rintro _ ⟨⟩
      exact told.trans stands.symm
  | refused stopped kept pin =>
      have same := congrArg (fun station : Station => some station.config.line) kept
      cases running : s.link.engine.running with
      | true => exact .stopped ⟨rfl, pin⟩ running stopped same
      | false => exact .stays same (stopped.trans (congrArg (_, ·) running.symm))

variable [Hardware H]

/-- A direction that is set is told of, and one that is refused leaves no trace at the
station. -/
theorem wp_setDirection_station (used : s.link.uses = free) (target : Direction) (enable : Bool) :
    WP (fun _ => True) (setDirection target enable) (fun outcome t =>
      (outcome = .ok () → t.station.config.line =
        (if target = s.link.cell.value.direction then s.station.config.direction else target,
          enable)) ∧
      ∀ refusal, outcome = .error refusal → t.station = s.station) s := by
  rw [setDirection]
  apply WP.bind (wp_direction used)
  rintro answer t ⟨rfl, rfl⟩
  dsimp only
  rw [WP.ite_iff]
  constructor
  · intro present
    have settles : Keeps id (settle t.link.cell.value.running enable : Act (Attached H d r) Unit) :=
      .settle _ _
    apply WP.bind (settles t)
    intro _ u kept
    rw [if_pos present]
    refine ⟨fun _ => congrArg (fun station => (station.config.direction, enable)) kept, ?_⟩
    rintro refusal ⟨⟩
  · intro other
    have stops : Keeps id
        (Act.onlyIf t.link.cell.value.running stopSequencer : Act (Attached H d r) Unit) :=
      .onlyIf _ .stopSequencer
    rw [if_neg other]
    apply WP.bind (stops t)
    intro _ u kept
    rw [turn, WP.bind_iff, wp_onLink]
    apply wp_drive
    intro driven time hardware
    cases driven with
    | false =>
        refine ⟨?_, fun _ _ => kept⟩
        rintro ⟨⟩
    | true =>
        rw [if_pos rfl, WP.bind_iff, takeDirection, WP.bind_iff]
        refine (WP.unasked _ _).mono fun _ _ _ => ⟨fun _ => rfl, ?_⟩
        rintro refusal ⟨⟩

/-- Where the direction is told, it goes on to be when the line is switched. -/
theorem turned_of (used : s.link.uses = free)
    (told : s.station.config.direction = s.link.engine.direction)
    (ended : setDirection target enable s = .ok (outcome, t))
    (leads : s.link.Leads (·.Switches target enable outcome ·) t.link) :
    s.Turned target enable outcome t := by
  obtain ⟨sets, keeps⟩ := (wp_setDirection_station used target enable).elim ended
  cases outcome with
  | ok done =>
      obtain ⟨direction, running, _⟩ := Scene.standing_iff.mp leads.scene.done
      refine .done (Prod.ext direction running) ((sets rfl).trans ?_)
      have present : s.link.cell.value.direction = s.station.config.direction := told.symm
      rw [present]
      split
      · rename_i same
        rw [same]
      · rfl
  | error refusal =>
      obtain ⟨direction, stopped, _⟩ := Scene.standing_iff.mp leads.scene.failed
      obtain ⟨rfl, _, time, earlier, journal, _⟩ := leads.scene.refusal
      have last : t.link.line.journal = ⟨time, .pin target.pinLevel false⟩ :: earlier := journal
      exact .refused (Prod.ext direction stopped) (keeps _ rfl)
        ⟨⟨time, .pin target.pinLevel false⟩, last ▸ List.mem_cons_self, _, rfl⟩

variable {allowed : Fault → Prop}

/-- However a frame was sent, the line stands as is told, unless the pin has refused to take
it. -/
theorem wp_transmit_retells (may : MayWait allowed H d r) (h : s.Ready)
    (quiet : s.link.cell.value.sending = false)
    (told : s.station.config.direction = s.link.engine.direction) (bytes : List UInt8)
    (withBreak : Bool) :
    WP allowed (transmit bytes withBreak) (fun outcome t =>
      s.Retells (outcome = .error (.line .pin) ∧ t.link.line.journal.PinRefused) t) s := by
  apply wp_transmit_of may h quiet
  · exact fun refusal t ended leads => (turned_of h.free told ended leads).retells
  · rintro t link finished outcome u ended takes ⟨frames, used⟩ ended' returns
    refine .reports ?_
    rintro _ ⟨⟩
    -- The line was taken, and is still when it is to be handed back.
    have standing := (frames.steps (Scene.Transmits.taken takes.scene)).standing_eq
      (by simp [Step.Kind.IsManual])
    obtain ⟨direction, running, _⟩ := Scene.standing_iff.mp standing
    have stands : link.engine.line = t.link.engine.line := Prod.ext direction running
    cases turned_of h.free told ended takes with
    | done taken told' =>
        have told'' : t.station.config.direction = link.engine.direction :=
          congrArg Prod.fst (told'.trans (stands.trans taken).symm)
        have used' := used.trans (takes.uses.trans h.free)
        cases turned_of used' told'' ended' returns with
        | done returned told => exact told.trans returned.symm
        | refused stopped kept =>
            rw [stopped, kept, told']
            exact (congrArg (fun line : Direction × Bool => (line.1, false))
              (stands.trans taken)).symm

theorem wp_sendSpaced_retells (may : MayWait allowed H d r) (h : s.Ready)
    (quiet : s.link.cell.value.sending = false)
    (told : s.station.config.direction = s.link.engine.direction) (spacing : Micros)
    (bytes : List UInt8) (withBreak : Bool) :
    WP allowed (do waitSpacing spacing; transmit bytes withBreak) (fun outcome t =>
      s.Retells (outcome = .error (.line .pin) ∧ t.link.line.journal.PinRefused) t) s := by
  have keeps : Keeps id (waitSpacing spacing : Act (Attached H d r) Unit) := .waitSpacing spacing
  apply WP.bind (wp_waitSpacing may h spacing).ran
  rintro _ t ⟨ended, spaces, used⟩
  have kept : t.station = s.station := (keeps s).elim ended
  obtain ⟨ready, standing⟩ := h.keeps ⟨spaces.waits, used⟩ Scene.Waits.calm
  obtain ⟨direction, running, _⟩ := Scene.standing_iff.mp standing
  have quiet' : t.link.cell.value.sending = false :=
    (Scene.sending_of_standing standing).trans quiet
  have told' : t.station.config.direction = t.link.engine.direction := by
    rw [kept]
    exact told.trans direction.symm
  exact (wp_transmit_retells may ready quiet' told' bytes withBreak).mono fun _ _ retells =>
    retells.behind (congrArg (·.config.line) kept) (Prod.ext direction running)

theorem wp_sendMessage_retells (may : MayWait allowed H d r) (h : s.Ready)
    (told : s.station.config.direction = s.link.engine.direction) (message : List UInt8)
    (spacing : Micros) :
    WP allowed (sendMessage message spacing) (fun answer t =>
      s.Retells (answer = .error (.line .pin) ∧ t.link.line.journal.PinRefused) t) s := by
  apply wp_sendMessage_of h.free
  · exact fun _ => .stays rfl rfl
  · exact fun _ _ _ => .stays rfl rfl
  · intro sum quiet _
    have ready : Ready { s with station :=
        { s.station with transaction := s.station.transaction + 1 } } := h.of_scene_eq rfl rfl
    apply (wp_sendSpaced_retells may ready quiet told spacing _ true).mono
    rintro outcome t retells
    exact Dmx512.Retells.mono retells fun ⟨pin, refused⟩ => ⟨by rw [pin]; rfl, refused⟩

theorem wp_sendResponse_retells (may : MayWait allowed H d r) (h : s.Ready)
    (told : s.station.config.direction = s.link.engine.direction) (message : List UInt8) :
    WP allowed (sendResponse message) (fun outcome t =>
      s.Retells (outcome = .error (.line .pin) ∧ t.link.line.journal.PinRefused) t) s := by
  apply wp_sendResponse_of h.free
  · exact fun _ => .stays rfl rfl
  · exact fun _ _ _ => .stays rfl rfl
  · exact fun sum quiet _ => wp_sendSpaced_retells may h quiet told responderSpacing _ true

theorem wp_sendDiscoveryResponse_retells (may : MayWait allowed H d r) (h : s.Ready)
    (told : s.station.config.direction = s.link.engine.direction) (uid : Uid) :
    WP allowed (sendDiscoveryResponse uid) (fun outcome t =>
      s.Retells (outcome = .error (.line .pin) ∧ t.link.line.journal.PinRefused) t) s :=
  wp_unlessStreaming h.free (fun _ => .stays rfl rfl) fun quiet =>
    wp_sendSpaced_retells may h quiet told responderSpacing _ false

end Attached

end Dmx512
