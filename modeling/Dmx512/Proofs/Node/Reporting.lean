import Dmx512.Bench
import Dmx512.Proofs.Node.Switching
import Dmx512.Proofs.Node.Tuning

/-!
# The configuration tells what is in use

At every node that a run leads to, the configuration of the station tells the direction of the
line, and that its sequencer runs where it does. That it does not run is told as long as the
pin has taken every level; where it has refused to turn a line whose sequencer ran, the
configuration goes on telling of a sequencer that was stopped, until a direction is set.
-/

namespace Dmx512.Node

open Act Link

variable {H : Type} {d r : Nat} {s t : Node H d r} {station : Station} {operation : Operation}
variable {answer : Answer}

def told (s : Node H d r) : Option (Direction × Bool) := s.station.map (·.config.line)

/-- What an operation makes of how the line stands, and of what is told of it. -/
def Retells (answer : Answer) (s t : Node H d r) : Prop :=
  Dmx512.Retells (answer = .refused (.line .pin) ∧ t.link.line.journal.PinRefused)
    s.told s.link.engine.line t.told t.link.engine.line

variable [Hardware H]

/-- An operation that does not control the line leaves it standing as it does. -/
theorem wp_perform_stands (h : s.Sound) (other : ¬ operation.Controls) :
    WP Fault.IsStall (perform operation)
      (fun _ t => t.link.engine.line = s.link.engine.line) s := by
  have stands {kinds : Step.Kind → Prop} {frames : List (List UInt8)} {t : Node H d r}
      (performed : Performed kinds frames s t) (controls : ¬ kinds .control) :
      t.link.engine.line = s.link.engine.line := by
    obtain ⟨direction, running, _⟩ :=
      Scene.standing_iff.mp (performed.moves.steps.standing_eq controls)
    exact Prod.ext direction running
  have queries {act : Act (Attached H d r) Answer} (does : Attached.Does (· = .interrupt) act) :
      WP Fault.IsStall (onStation act)
        (fun _ t => t.link.engine.line = s.link.engine.line) s :=
    (wp_calm h (fun _ => .inl) (by simp) does).mono fun _ _ performed => stands performed nofun
  cases operation with
  | attach | detach | setDirection | sendMessage | sendResponse | sendDiscoveryResponse =>
      exact absurd trivial other
  | sendData | sendSlots | takeDmx | peekDmx | takeChangedDmx | takeRdm | peekRdm | flush
  | setBreakTime | setMarkTime | setPeriod =>
      exact (wp_perform h _).mono fun _ _ performed =>
        stands performed (by simp [Operation.kinds])
  | interrupt interrupt =>
      rw [perform, WP.bind_iff, wp_onLink]
      have serves : Link.Does Fault.IsStall Link.free (· = .interrupt)
          (Link.serve interrupt : Act (Link H d r) Unit) := .serve (by rfl) interrupt
      apply (serves s.link h.free h.sound).mono
      rintro _ link moves
      obtain ⟨direction, running, _⟩ := Scene.standing_iff.mp (moves.steps.standing_eq nofun)
      exact Prod.ext direction running
  | counters => exact rfl
  | timing => exact queries (Attached.Does.timing.bind fun _ => .pure _)
  | config | transaction => exact queries (Attached.Does.get.bind fun _ => .pure _)
  | direction => exact queries (Attached.Does.direction.bind fun _ => .pure _)
  | statistics => exact queries ((Attached.Does.statistics (by rfl)).bind fun _ => .pure _)
  | updatesPerSecond =>
      exact queries ((Attached.Does.updatesPerSecond (by rfl)).bind fun _ => .pure _)
  | resetCounters => exact queries (Attached.Does.resetCounters.bind fun _ => .pure _)

/-- An operation that does not control the line leaves what is told of it. -/
theorem wp_perform_told (h : s.Sound) (other : ¬ operation.Controls) :
    WP (fun _ => True) (perform operation) (fun _ t => t.told = s.told) s := by
  have sets {f : Config → Config} (same : ∀ config, (f config).line = config.line) :
      WP (fun _ => True) (onStation do pure (.timing (← Attached.applyTiming f)))
        (fun _ t => t.told = s.told) s := by
    apply ((wp_onStation_adjusts h f).allow fun _ _ => trivial).mono
    rintro _ t ⟨asked, _⟩
    have lines := congrArg (Option.map Config.line) asked
    simp only [Option.map_map, Function.comp_def, same] at lines
    exact lines
  by_cases adjusts : operation.kinds .adjust
  · cases operation with
    | setBreakTime | setMarkTime | setPeriod => exact sets fun _ => rfl
    | attach => exact absurd trivial other
    | _ => simp [Operation.kinds, Step.Kind.IsSteering] at adjusts
  · exact wp_perform_keeps (·.config.line) (fun _ _ _ => rfl) (fun _ _ _ => rfl)
      (fun _ _ _ _ _ _ => rfl) (fun _ _ _ => rfl) (fun controls => absurd controls other)
      (fun adjusts' => absurd adjusts' adjusts) fun detach => other (detach ▸ trivial)

omit [Hardware H] in
/-- What a station that is ready retells, a node does. -/
theorem wp_onStation_retells (h : s.Sound) (tells : Tells s.told s.link.engine.line)
    {act : Act (Attached H d r) Answer}
    (retells : ∀ a : Attached H d r, a.Ready →
      a.station.config.direction = a.link.engine.direction →
      WP Fault.IsStall act (fun answer t => a.Retells
        (answer = .refused (.line .pin) ∧ t.link.line.journal.PinRefused) t) a) :
    WP Fault.IsStall (onStation act) (fun answer t => s.Retells answer t) s := by
  cases present : s.station with
  | none => exact (wp_onStation_none present).mpr (.stays rfl rfl)
  | some station =>
      have told : s.told = some station.config.line := by
        rw [Node.told, present]
        rfl
      apply (wp_onStation_some present).mpr
      apply (retells _ (h.ready present) (tells _ told).1).mono
      rintro answer t retells
      rw [Retells, told]
      exact retells

/-- Whatever an operation does, it leaves the line standing as is told, or how it stands and
what is told of it, unless the pin has refused to turn a line whose sequencer ran. -/
theorem wp_perform_retells (h : s.Sound) (tells : Tells s.told s.link.engine.line)
    (operation : Operation) :
    WP Fault.IsStall (perform operation) (fun answer t => s.Retells answer t) s := by
  have stays (other : ¬ operation.Controls) :
      WP Fault.IsStall (perform operation) (fun answer t => s.Retells answer t) s :=
    (wp_perform_stands h other).ran.mono fun _ _ ⟨ended, stands⟩ =>
      .stays ((wp_perform_told h other).elim ended) stands
  cases operation with
  | attach config =>
      apply (wp_attach_leads h config).mono
      rintro _ t (⟨⟨_, attaches⟩, same⟩ | ⟨attaches, station⟩)
      · exact .stays (congrArg (Option.map fun station : Station => station.config.line) same)
          (congrArg Engine.line attaches.failed)
      · obtain ⟨direction, running, _⟩ := Scene.standing_iff.mp (attaches.done h.sound)
        refine .reports ?_
        rw [told, station]
        rintro _ ⟨⟩
        exact (Prod.ext direction running).symm
  | detach =>
      apply (wp_perform h .detach).ran.mono
      rintro _ t ⟨ended, _⟩
      refine .reports ?_
      rw [told, wp_detach_absent.elim ended]
      exact nofun
  | setDirection target enable =>
      apply wp_onStation_retells h tells
      intro a ready told
      apply WP.bind (Attached.wp_setDirection ready target enable fun sending _ =>
        ready.mayDrain Fault.isStall_stalled sending).ran
      rintro outcome t ⟨ended, leads⟩
      exact Dmx512.Retells.mono (Attached.turned_of ready.free told ended leads).retells
        fun ⟨pin, refused⟩ => ⟨congrArg Answer.ofOutcome pin, refused⟩
  | sendMessage message spacing =>
      apply wp_onStation_retells h tells
      intro a ready told
      apply WP.bind (Attached.wp_sendMessage_retells mayWait_isStall ready told message spacing)
      rintro answer t retells
      cases answer with
      | ok number => exact Dmx512.Retells.mono retells fun ⟨pin, _⟩ => nomatch pin
      | error refusal =>
          exact Dmx512.Retells.mono retells fun ⟨pin, refused⟩ =>
            ⟨congrArg Answer.refused (Except.error.inj pin), refused⟩
  | sendResponse message =>
      apply wp_onStation_retells h tells
      intro a ready told
      apply WP.bind (Attached.wp_sendResponse_retells mayWait_isStall ready told message)
      rintro outcome t retells
      exact Dmx512.Retells.mono retells
        fun ⟨pin, refused⟩ => ⟨congrArg Answer.ofOutcome pin, refused⟩
  | sendDiscoveryResponse uid =>
      apply wp_onStation_retells h tells
      intro a ready told
      apply WP.bind (Attached.wp_sendDiscoveryResponse_retells mayWait_isStall ready told uid)
      rintro outcome t retells
      exact Dmx512.Retells.mono retells
        fun ⟨pin, refused⟩ => ⟨congrArg Answer.ofOutcome pin, refused⟩
  | _ => exact stays nofun

/-- What is told of the line of a node: its direction and a sequencer that runs; and how it
stands, as long as the pin has refused nothing. -/
structure Reported (s : Node H d r) : Prop where
  tells : Tells s.told s.link.engine.line
  reports : ¬ s.link.line.journal.PinRefused → Reports s.told s.link.engine.line

theorem Sound.act_reported (h : s.Sound) (reported : s.Reported) {action : Action H}
    (acted : s.act action = .ok t) : t.Reported := by
  cases action with
  | disturb change =>
      cases acted
      exact ⟨reported.tells, reported.reports⟩
  | perform operation =>
      obtain ⟨answer, ended⟩ := perform_of_act acted
      have retells := (wp_perform_retells h reported.tells operation).elim ended
      refine ⟨Dmx512.Retells.tells retells reported.tells, fun never => ?_⟩
      have older := (h.act acted).moves.steps.journal_suffix
      have before := reported.reports fun ⟨entry, mem, refused⟩ =>
        never ⟨entry, older.mem mem, refused⟩
      rcases Dmx512.Retells.reports_or retells before with reports | ⟨⟨_, refused⟩, _⟩
      · exact reports
      · exact absurd refused never

theorem Reachable.reported (reachable : s.Reachable) : s.Reported :=
  reachable.induct (fun _ _ _ sound reported acted => sound.act_reported reported acted)
    fun _ => ⟨nofun, fun _ => nofun⟩

theorem perform_config (present : s.station = some station) :
    perform .config s = .ok (.config station.config, s) := by
  obtain ⟨link, station'⟩ := s
  obtain rfl : station' = some station := present
  rfl

/-- A direction that is set is told of. -/
theorem Sound.setDirection_reports (h : s.Sound) (reported : s.Reported) {target : Direction}
    {enable : Bool} (ended : perform (.setDirection target enable) s = .ok (.done, t)) :
    Reports t.told t.link.engine.line := by
  have acted := act_of_perform ended
  cases present : s.station with
  | none =>
      have absent : WP (fun _ => False) (perform (.setDirection target enable))
          (fun answer _ => answer = .noStation) s := (wp_onStation_none present).mpr rfl
      cases absent.elim ended
  | some station =>
      obtain ⟨outcome, station', answered, present', leads, configured⟩ := h.switches present ended
      cases outcome with
      | error refusal => cases answered
      | ok done =>
          obtain ⟨_, running, _⟩ := Scene.standing_iff.mp leads.scene.done
          have told : t.told = some station'.config.line := by
            rw [Node.told, present']
            rfl
          obtain ⟨direction, _⟩ := (h.act_reported reported acted).tells _ told
          rw [told]
          rintro _ ⟨⟩
          exact Prod.ext direction ((configured rfl).trans running.symm)

/-- What a configuration tells is in use. After every operation of every run, whatever it
answered, the configuration of a station tells the direction of its line, and that the
sequencer runs where it does; and it tells how the line stands as long as the pin has taken
every level. An operation at a line that stands as is told leaves it so, unless it was refused
by the pin and has stopped a sequencer that ran: then it goes on being told of. A direction
that is set is told again. -/
theorem Reachable.config_reports (reachable : s.Reachable) :
    (∀ station, s.station = some station →
      perform .config s = .ok (.config station.config, s) ∧
      perform .direction s =
        .ok (.direction s.link.engine.direction s.link.engine.running, s) ∧
      station.config.direction = s.link.engine.direction ∧
      (s.link.engine.running = true → station.config.dataEnabled = true) ∧
      (¬ s.link.line.journal.PinRefused → station.config.line = s.link.engine.line)) ∧
    (Reports s.told s.link.engine.line →
      ∀ operation answer t, perform operation s = .ok (answer, t) →
        Reports t.told t.link.engine.line ∨
        answer = .refused (.line .pin) ∧ s.link.engine.running = true ∧
          t.link.engine.line = (s.link.engine.direction, false) ∧ t.told = s.told) ∧
    ∀ target enable t, perform (.setDirection target enable) s = .ok (.done, t) →
      Reports t.told t.link.engine.line := by
  have sound := reachable.sound
  have reported := reachable.reported
  refine ⟨fun station present => ?_, fun reports operation answer t ended => ?_,
    fun target enable t ended => ?_⟩
  · have told : s.told = some station.config.line := by
      rw [Node.told, present]
      rfl
    obtain ⟨direction, running⟩ := reported.tells _ told
    exact ⟨perform_config present, sound.perform_direction present, direction, running,
      fun never => reported.reports never _ told⟩
  · have retells := (wp_perform_retells sound reported.tells operation).elim ended
    rcases Dmx512.Retells.reports_or retells reports with reports' | ⟨⟨refused, _⟩, stopped⟩
    · exact .inl reports'
    · exact .inr ⟨refused, stopped⟩
  · exact sound.setDirection_reports reported ended

def refusingInput : List (Action Bench) :=
  [.perform (.attach {}), .disturb (Bench.listPinFailures [true])]

/-- Where the pin refuses to turn a line that receives, the configuration goes on telling that
it does, until a direction is set. -/
theorem Reachable.config_reports_turns :
    ∃ s m t : Node Bench 0 0, s.Reachable ∧ Reports s.told s.link.engine.line ∧
      perform (.setDirection .output true) s = .ok (.refused (.line .pin), m) ∧
      m.link.engine.line = (.input, false) ∧ m.told = s.told ∧
      perform (.setDirection .output true) m = .ok (.done, t) ∧
      Reports t.told t.link.engine.line := by
  have carried : (powerUp {} : Node Bench 0 0).Ends refusingInput fun s =>
      (s.told = some (.input, true) ∧ s.link.engine.line = (.input, true)) ∧
        ∃ refused, perform (.setDirection .output true) s = .ok refused ∧
          (refused.1 = .refused (.line .pin) ∧ refused.2.told = some (.input, true) ∧
            refused.2.link.engine.line = (.input, false)) ∧
          ∃ done, perform (.setDirection .output true) refused.2 = .ok done ∧ done.1 = .done := by
    decide +kernel
  obtain ⟨s, ran, ⟨told, receives⟩, ⟨_, m⟩, refused, ⟨rfl, told', stopped⟩, ⟨_, t⟩, done, rfl⟩ :=
    carried
  have reachable : s.Reachable := ⟨{}, _, ran⟩
  have reports : Reports s.told s.link.engine.line := by
    rw [told, receives]
    rintro _ ⟨⟩
    rfl
  obtain ⟨_, keeps, _⟩ := Reachable.config_reports reachable
  obtain ⟨_, _, sets⟩ :=
    Reachable.config_reports (Reachable.act reachable (act_of_perform refused))
  rcases keeps reports _ _ m refused with reports' | ⟨_, _, _, same⟩
  · cases (reports' _ told').trans stopped
  · exact ⟨s, m, t, reachable, reports, refused, stopped, same, done, sets _ _ t done⟩

/-- A sequencer that was stopped goes on being told of. -/
theorem config_tells_stopped :
    ∃ s t : Node Bench 0 0, s.Reachable ∧
      perform (.setDirection .output true) s = .ok (.refused (.line .pin), t) ∧
      perform .direction t = .ok (.direction .input false, t) ∧
      perform .config t = .ok (.config { direction := .input, dataEnabled := true }, t) := by
  have carried : (powerUp {} : Node Bench 0 0).Ends refusingInput fun s =>
      ∃ refused, perform (.setDirection .output true) s = .ok refused ∧
        refused.1 = .refused (.line .pin) ∧ refused.2.station = some { config := {} } ∧
        refused.2.link.engine.line = (.input, false) := by
    decide +kernel
  obtain ⟨s, ran, ⟨_, t⟩, refused, rfl, present, line⟩ := carried
  have reachable : s.Reachable := ⟨{}, _, ran⟩
  have tells := (Reachable.act reachable (act_of_perform refused)).sound.perform_direction present
  obtain ⟨direction, running⟩ := Prod.mk.inj line
  rw [direction, running] at tells
  exact ⟨s, t, reachable, refused, tells, perform_config present⟩

end Dmx512.Node
