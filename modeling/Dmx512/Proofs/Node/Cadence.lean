import Dmx512.Bench
import Dmx512.Proofs.Node.Tuning

/-!
# The cadence of a sequence

While the sequencer of the output keeps running, what happens to its link is a row of
services of the transmit alarm. Where every alarm is served at its deadline, and break
and mark are set between frames only, every frame keeps its cadence: the break and the
mark last as long as they were set to, and a period behind the break comes the next one,
unless bytes of the frame still wait.

A break or mark that is set while the frame begins may shorten the period below what
has passed of it. The next alarm is then set to a time that is over.
-/

namespace Dmx512

open Standard Act

namespace Node

variable {H : Type} [Hardware H] {d r : Nat} {s t : Node H d r}
variable {action : Action H} {actions rest : List (Action H)} {new : Journal}

omit [Hardware H] in
/-- Where a break or the mark behind it is on the line, the action sets no other break or
mark than those in use. -/
def Holds (s : Node H d r) : Action H → Prop
  | .perform operation => s.link.engine.transmitter.IsFraming →
      s.link.engine.transmitter.timing.AgreesWith operation
  | .disturb _ => True

omit [Hardware H] in
instance (s : Node H d r) : (action : Action H) → Decidable (s.Holds action)
  | .perform _ => inferInstanceAs (Decidable (_ → _))
  | .disturb _ => .isTrue trivial

/-- A run during which break and mark are set between frames only. -/
def HoldsTiming (s : Node H d r) (actions : List (Action H)) : Prop :=
  ∀ n m action, s.run (actions.take n) = .ok m → actions[n]? = some action → m.Holds action

theorem holdsTiming_nil : s.HoldsTiming ([] : List (Action H)) := by
  simp [HoldsTiming]

theorem holdsTiming_cons :
    s.HoldsTiming (action :: rest) ↔
      s.Holds action ∧ ∀ m, s.act action = .ok m → m.HoldsTiming rest := by
  constructor
  · intro h
    refine ⟨h 0 s action rfl rfl, fun m acted n u next ran found => h (n + 1) u next ?_ found⟩
    rw [List.take_succ_cons, run, acted]
    exact ran
  · rintro ⟨first, others⟩ n u next ran found
    cases n with
    | zero =>
        cases ran
        cases found
        exact first
    | succ n =>
        obtain ⟨m, acted, ran'⟩ := run_cons ran
        exact others m acted n u next ran' found

/-- Whether a run sets the timing between frames only can be found out by carrying it
out. -/
instance HoldsTiming.decide (s : Node H d r) :
    (actions : List (Action H)) → Decidable (s.HoldsTiming actions)
  | [] => .isTrue holdsTiming_nil
  | _ :: rest =>
    have (m : Node H d r) : Decidable (m.HoldsTiming rest) := HoldsTiming.decide m rest
    decidable_of_iff _ holdsTiming_cons.symm

omit [Hardware H] in
/-- What sets the timing lets the sequence drift, and where it leaves the settings in use,
those of a frame that begins are held. -/
theorem Sound.adjust_drifts (h : s.Sound) (tuned : s.Tuned) (sending : s.link.engine.sending = true)
    {held : Prop} {f : Config → Config} {answer : Answer}
    (ended : onStation (do pure (.timing (← Attached.applyTiming f))) s = .ok (answer, t))
    (steps : Steps (· = .adjust) s.link.scene t.link.scene)
    (agrees : held → s.link.engine.transmitter.IsFraming → ∀ config : Config,
      config.settings = s.link.engine.transmitter.timing.settings →
        (f config).settings = s.link.engine.transmitter.timing.settings) :
    s.link.scene.Drifts held [] t.link.scene := by
  have drifts := Steps.drifts_adjust steps
  refine { drifts with transmitter := { drifts.transmitter with settings := ?_ } }
  intro holds framing
  obtain ⟨before, present⟩ := h.exists_station sending
  obtain ⟨_, request⟩ := (wp_onStation_adjusts h f).elim ended
  exact (congrArg Prod.fst (request before present)).trans
    (agrees holds framing before.config (tuned.settings before present).symm)

/-- An action at a node that sends before and after is a row of services. -/
theorem Sound.act_serves (h : s.Sound) (tuned : s.Tuned) (acted : s.act action = .ok t)
    (before : s.link.engine.sending = true) (after : t.link.engine.sending = true) :
    ∃ services new, s.link.scene.Serves (s.Holds action) services new t.link.scene := by
  have performed := h.act acted
  cases action with
  | disturb change =>
      cases acted
      exact ⟨[], [], .start⟩
  | perform operation =>
      obtain ⟨answer, ended⟩ := perform_of_act acted
      by_cases adjusts : operation.kinds .adjust
      · have drifts {f : Config → Config}
            (sets : perform operation = onStation (H := H) (d := d) (r := r)
              do pure (.timing (← Attached.applyTiming f)))
            (steps : Steps (· = .adjust) s.link.scene t.link.scene)
            (agrees : s.Holds (.perform operation) → s.link.engine.transmitter.IsFraming →
              ∀ config : Config, config.settings = s.link.engine.transmitter.timing.settings →
                (f config).settings = s.link.engine.transmitter.timing.settings) :
            ∃ services new, s.link.scene.Serves (s.Holds (.perform operation)) services new
              t.link.scene :=
          ⟨[], _, .drift .start (h.adjust_drifts tuned before (sets ▸ ended) steps agrees)⟩
        cases operation with
        | attach config =>
            rcases (wp_attach_leads h config).elim ended with ⟨⟨_, attaches⟩, _⟩ | ⟨attaches, _⟩
            all_goals
              rw [attaches.eq_of_running h.sound (Bool.and_eq_true_iff.mp before).1]
              exact ⟨[], [], .start⟩
        | setBreakTime us =>
            refine drifts rfl performed.moves.steps fun holds framing config same => ?_
            obtain ⟨_, mark⟩ := Prod.mk.inj same
            exact Prod.ext (holds framing) mark
        | setMarkTime us =>
            refine drifts rfl performed.moves.steps fun holds framing config same => ?_
            obtain ⟨lineBreak, _⟩ := Prod.mk.inj same
            exact Prod.ext lineBreak (holds framing)
        | setPeriod us => exact drifts rfl performed.moves.steps fun _ _ _ same => same
        | _ => simp [Operation.kinds, Step.Kind.IsSteering] at adjusts
      · exact (performed.calm before after).steps.serves (fun _ within => within.1) h.sound
          tuned.timed h.settled.goesOn before fun _ within => adjusts within.2

/-- A run that keeps sending is a row of services. -/
theorem Sound.run_serves (h : s.Sound) (tuned : s.Tuned) (ran : s.run actions = .ok t)
    (sends : s.KeepsSending actions) :
    ∃ services new, s.link.scene.Serves (s.HoldsTiming actions) services new t.link.scene := by
  induction actions generalizing s with
  | nil =>
      cases ran
      exact ⟨[], [], .start⟩
  | cons action rest ih =>
      obtain ⟨m, acted, ran'⟩ := run_cons ran
      have sends' := sends.rest acted
      obtain ⟨services, new, served⟩ := h.act_serves tuned acted sends.start sends'.start
      obtain ⟨others, more, served'⟩ :=
        ih ((h.act acted).sound h) (h.act_tuned tuned acted) ran' sends'
      exact ⟨_, _, (served.mono fun holds => (holdsTiming_cons.mp holds).1).trans
        (served'.mono fun holds => (holdsTiming_cons.mp holds).2 m acted)⟩

/-- What a run that keeps sending added to the journal is what its services did, and what
drifted between them. -/
theorem Reachable.serves (reachable : s.Reachable) (ran : s.run actions = .ok t)
    (sends : s.KeepsSending actions) (journal : t.link.line.journal = new ++ s.link.line.journal) :
    ∃ services, s.link.scene.Serves (s.HoldsTiming actions) services new t.link.scene := by
  obtain ⟨services, added, served⟩ := reachable.sound.run_serves reachable.tuned ran sends
  have same : added = new := List.append_cancel_right (served.journal.symm.trans journal)
  exact ⟨services, same ▸ served⟩

/-- Frames keep their cadence. A run that keeps sending is a row of services, one for each
alarm that was served. Where it sets break and mark between frames only, and each alarm is
served at its deadline: the break that a service puts on the line is taken off when it has
lasted as long as it was set to, the bytes begin when the mark has, and a period behind the
beginning of the break, which fits all of the frame, comes the service that begins the next
one, unless it finds bytes waiting. That one does nothing but come again once they may be
out. -/
theorem Reachable.keeps_cadence (reachable : s.Reachable) (ran : s.run actions = .ok t)
    (sends : s.KeepsSending actions) (holds : s.HoldsTiming actions)
    (journal : t.link.line.journal = new ++ s.link.line.journal)
    (punctual : Journal.Punctual s.link.line.journal new) :
    ∃ services : List Service, s.link.scene.Serves True services new t.link.scene ∧
      services.map Service.alarm = new.alarms ∧
      (∀ entry ∈ new, entry.BeginsBreak → ∃ a ∈ services, a.BeginsFrame ∧ entry ∈ a.entries) ∧
      (∀ (later : List Service) (c b a : Service) (earlier : List Service),
        services = later ++ c :: b :: a :: earlier → a.BeginsFrame →
        a.InCadence b c ∧
        ∀ d ∈ later.getLast?, d.time = a.time + c.before.timing.effective ∧
          (d.before.state = .data ∨ d.BeginsFrame)) ∧
      ∀ d ∈ services, d.before.state = .data →
        d.entries = [] ∧ d.next = d.time + UInt32.ofNat (44 * d.left + 44) := by
  obtain ⟨services, served⟩ := reachable.serves ran sends journal
  have served := served.mono fun _ : True => holds
  refine ⟨services, served, served.alarms, served.breaks, ?_, fun d _ => d.late_of_data⟩
  intro later c b a earlier split begins
  obtain ⟨ab, bc, last⟩ := served.row punctual split
  have cadence := ab.inCadence bc begins trivial
  refine ⟨cadence, fun d behind => ?_⟩
  have cd := last d behind
  obtain ⟨phase, _⟩ := ab.marked bc begins
  obtain ⟨_, _, _, begun⟩ := c.data_of_markAfterBreak phase
  exact ⟨cd.time.trans cadence.next, cd.goesOn begun⟩

def since (s t : Node H d r) : Journal :=
  t.link.line.journal.take (t.link.line.journal.length - s.link.line.journal.length)

/-- An output with a frame of two bytes, at an interface with room for one. -/
def cadenceStart : List (Action Bench) :=
  [.disturb (Bench.fitQueue (some 1) 0), .perform (.attach { direction := .output }),
    .perform (.sendData [0, 7])]

/-- The frame goes out with every alarm on time, one of them too early for the second byte,
and the next one begins. -/
def cadenceRun : List (Action Bench) :=
  [.disturb (Bench.setClock 4), .perform (.interrupt .transmitTimer), .perform (.setPeriod 3000),
    .perform (.setBreakTime 176), .disturb (Bench.setClock 180),
    .perform (.interrupt .transmitTimer), .perform (.sendSlots [9]),
    .disturb (Bench.setClock 192), .perform (.interrupt .transmitTimer),
    .disturb (Bench.setClock 3004), .perform (.interrupt .transmitTimer),
    .disturb (Bench.drain 1), .perform (.interrupt .uart), .perform (.setMarkTime 90),
    .disturb (Bench.setClock 3092), .perform (.interrupt .transmitTimer)]

def cadenceAlarms : List (Micros × TransmitState) :=
  [(3092, .interPacket), (3004, .data), (192, .markAfterBreak), (180, .lineBreak), (4, .idle)]

theorem services_of_alarms {services : List Service} {v w x y z : Micros × TransmitState}
    (told : services.map Service.alarm = [v, w, x, y, z]) :
    ∃ e d c b a : Service, services = [e, d, c, b, a] ∧
      a.alarm = z ∧ c.alarm = x ∧ d.alarm = w := by
  obtain ⟨e, _, rfl, _, told⟩ := List.map_eq_cons_iff.mp told
  obtain ⟨d, _, rfl, fourth, told⟩ := List.map_eq_cons_iff.mp told
  obtain ⟨c, _, rfl, third, told⟩ := List.map_eq_cons_iff.mp told
  obtain ⟨b, _, rfl, _, told⟩ := List.map_eq_cons_iff.mp told
  obtain ⟨a, _, rfl, first, told⟩ := List.map_eq_cons_iff.mp told
  obtain rfl := List.map_eq_nil_iff.mp told
  exact ⟨e, d, c, b, a, rfl, first, third, fourth⟩

theorem Reachable.keeps_cadence_narrow :
    ∃ s t : Node Bench 0 0, s.Reachable ∧ s.run cadenceRun = .ok t ∧
      s.KeepsSending cadenceRun ∧ s.HoldsTiming cadenceRun ∧
      t.link.line.journal = s.since t ++ s.link.line.journal ∧
      Journal.Punctual s.link.line.journal (s.since t) ∧
      t.link.line.journal.alarm? .transmit = some 3268 ∧
      ∃ e d c b a : Service,
        s.link.scene.Serves True [e, d, c, b, a] (s.since t) t.link.scene ∧
        a.alarm = (4, .idle) ∧ d.alarm = (3004, .data) ∧ a.BeginsFrame ∧ a.InCadence b c ∧
        d.time = a.time + c.before.timing.effective ∧
        d.entries = [] ∧ d.next = d.time + UInt32.ofNat (44 * d.left + 44) := by
  have carried : (powerUp {} : Node Bench 0 0).Ends cadenceStart fun s =>
      s.KeepsSending cadenceRun ∧ s.HoldsTiming cadenceRun ∧ s.Ends cadenceRun fun t =>
        t.link.line.journal = s.since t ++ s.link.line.journal ∧
          Journal.Punctual s.link.line.journal (s.since t) ∧
          t.link.line.journal.alarm? .transmit = some 3268 ∧
          (s.since t).alarms = cadenceAlarms := by
    decide +kernel
  obtain ⟨s, started, sends, holds, t, ran, journal, punctual, next, told⟩ := carried
  have reachable : s.Reachable := ⟨{}, cadenceStart, started⟩
  obtain ⟨services, served, same, _, frames, late⟩ :=
    Reachable.keeps_cadence reachable ran sends holds journal punctual
  obtain ⟨e, d, c, b, a, rfl, first, _, fourth⟩ := services_of_alarms (same.trans told)
  have begins : a.BeginsFrame :=
    Service.beginsFrame_of_between (.inl (congrArg Prod.snd first))
  obtain ⟨cadence, behind⟩ := frames [e, d] c b a [] rfl begins
  obtain ⟨time, _⟩ := behind d rfl
  obtain ⟨empty, again⟩ := late d (by simp) (congrArg Prod.snd fourth)
  exact ⟨s, t, reachable, ran, sends, holds, journal, punctual, next, e, d, c, b, a, served,
    first, fourth, begins, cadence, time, empty, again⟩

/-- The alarm behind a frame. A run that keeps sending is a row of services, one for each
alarm that was served. Where each is served at its deadline, whatever is queued and set
meanwhile: the next alarm behind the beginning of the bytes is set to a period behind the
break, by the timing then in use. Where the break and the mark that have passed took no
longer than those then in use, it lies ahead of all the bytes of the frame and of one slot
more, and is not over. -/
theorem Reachable.next_alarm_clears_frame (reachable : s.Reachable) (ran : s.run actions = .ok t)
    (sends : s.KeepsSending actions)
    (journal : t.link.line.journal = new ++ s.link.line.journal)
    (punctual : Journal.Punctual s.link.line.journal new) :
    ∃ services : List Service, s.link.scene.Serves False services new t.link.scene ∧
      services.map Service.alarm = new.alarms ∧
      ∀ (later : List Service) (c b a : Service) (earlier : List Service),
        services = later ++ c :: b :: a :: earlier → a.BeginsFrame →
        c.before.state = .markAfterBreak ∧
        c.time = a.time + a.after.timing.breakTime + b.before.timing.markTime ∧
        c.next = a.time + c.before.timing.effective ∧
        (a.after.timing.breakTime.toNat + b.before.timing.markTime.toNat ≤
            c.before.timing.breakTime.toNat + c.before.timing.markTime.toNat →
          44 * c.before.wire.length + 44 ≤ (elapsed c.next c.time).toNat ∧
          (c.before.timing.effective < 2147483648 →
            elapsed c.next c.time < 2147483648 ∧ isDue c.time c.next = false)) := by
  obtain ⟨services, served⟩ := reachable.serves ran sends journal
  have served := served.mono fun impossible : False => impossible.elim
  refine ⟨services, served, served.alarms, ?_⟩
  intro later c b a earlier split begins
  obtain ⟨ab, bc, _⟩ := served.row punctual split
  obtain ⟨phase, _, frameStart, begun⟩ := ab.marked bc begins
  obtain ⟨_, next, _⟩ := c.data_of_markAfterBreak phase
  refine ⟨phase, begun, next.trans (congrArg (· + _) frameStart), fun short => ?_⟩
  obtain ⟨ahead, within⟩ := ab.clears bc begins short
  refine ⟨ahead, fun small => ?_⟩
  have near : elapsed c.next c.time < 2147483648 :=
    UInt32.lt_iff_toNat_lt.mpr (Nat.lt_of_le_of_lt within (UInt32.lt_iff_toNat_lt.mp small))
  exact ⟨near, isDue_of_ahead (by omega) near⟩

/-- A break and a mark that took no longer than the shortest did not take longer than any. -/
theorem settings_le_of_shortest {a b c : Service}
    (begun : c.time = a.time + a.after.timing.breakTime + b.before.timing.markTime)
    (shortest : c.time = a.time + (breakMin + markMin)) :
    a.after.timing.breakTime.toNat + b.before.timing.markTime.toNat ≤
      c.before.timing.breakTime.toNat + c.before.timing.markTime.toNat := by
  obtain ⟨timed, _⟩ := a.advances.timed a.timed
  have longBreak := UInt32.le_iff_toNat_le.mp timed.fits.breakTime
  have longMark := UInt32.le_iff_toNat_le.mp b.timed.fits.markTime
  obtain ⟨leastBreak, leastMark⟩ := c.timed.least
  rw [UInt32.le_iff_toNat_le] at leastBreak leastMark
  have passed : a.after.timing.breakTime + b.before.timing.markTime = breakMin + markMin := by
    rw [begun, UInt32.add_assoc] at shortest
    exact (UInt32.add_right_inj _).mp shortest
  have sum := congrArg UInt32.toNat passed
  rw [UInt32.toNat_add, Nat.mod_eq_of_lt] at sum
  · have least : (breakMin + markMin).toNat = breakMin.toNat + markMin.toNat := rfl
    omega
  · have most : breakMax.toNat + markMax.toNat < 2 ^ 32 := by decide
    omega

/-- An output with the shortest break and mark, and a frame of two bytes. -/
def shortestStart : List (Action Bench) :=
  [.disturb (Bench.fitQueue (some 1) 0),
    .perform (.attach { breakTime := 92, direction := .output }), .perform (.sendData [0, 7])]

/-- The frame goes out with every alarm on time, while break, mark and period are set. -/
def settingRun : List (Action Bench) :=
  [.disturb (Bench.setClock 4), .perform (.interrupt .transmitTimer),
    .perform (.setBreakTime 176), .perform (.setPeriod 3000), .disturb (Bench.setClock 96),
    .perform (.interrupt .transmitTimer), .perform (.setMarkTime 90),
    .disturb (Bench.setClock 108), .perform (.interrupt .transmitTimer),
    .disturb (Bench.setClock 3004), .perform (.interrupt .transmitTimer),
    .disturb (Bench.drain 1), .perform (.interrupt .uart),
    .disturb (Bench.setClock 3092), .perform (.interrupt .transmitTimer)]

def settingAlarms : List (Micros × TransmitState) :=
  [(3092, .interPacket), (3004, .data), (108, .markAfterBreak), (96, .lineBreak), (4, .idle)]

theorem Reachable.next_alarm_clears_frame_narrow :
    ∃ s t : Node Bench 0 0, s.Reachable ∧ s.run settingRun = .ok t ∧
      s.KeepsSending settingRun ∧ t.link.line.journal = s.since t ++ s.link.line.journal ∧
      Journal.Punctual s.link.line.journal (s.since t) ∧
      ∃ e d c b a : Service,
        s.link.scene.Serves False [e, d, c, b, a] (s.since t) t.link.scene ∧
        a.alarm = (4, .idle) ∧ a.BeginsFrame ∧ c.before.state = .markAfterBreak ∧
        c.time = a.time + a.after.timing.breakTime + b.before.timing.markTime ∧ c.time = 108 ∧
        c.next = a.time + c.before.timing.effective ∧ c.next = 3004 ∧
        c.before.timing.effective = 3000 ∧
        a.after.timing.breakTime.toNat + b.before.timing.markTime.toNat ≤
          c.before.timing.breakTime.toNat + c.before.timing.markTime.toNat ∧
        44 * c.before.wire.length + 44 ≤ 2896 ∧ isDue c.time c.next = false := by
  have carried : (powerUp {} : Node Bench 0 0).Ends shortestStart fun s =>
      s.KeepsSending settingRun ∧ s.Ends settingRun fun t =>
        t.link.line.journal = s.since t ++ s.link.line.journal ∧
          Journal.Punctual s.link.line.journal (s.since t) ∧
          (s.since t).alarms = settingAlarms := by
    decide +kernel
  obtain ⟨s, started, sends, t, ran, journal, punctual, told⟩ := carried
  have reachable : s.Reachable := ⟨{}, shortestStart, started⟩
  obtain ⟨services, served, same, frames⟩ :=
    Reachable.next_alarm_clears_frame reachable ran sends journal punctual
  obtain ⟨e, d, c, b, a, rfl, first, third, fourth⟩ := services_of_alarms (same.trans told)
  obtain ⟨start, between⟩ := Prod.mk.inj first
  obtain ⟨time, _⟩ := Prod.mk.inj third
  have begins : a.BeginsFrame := Service.beginsFrame_of_between (.inl between)
  obtain ⟨phase, begun, next, clears⟩ := frames [e, d] c b a [] rfl begins
  have split : [e, d, c, b, a] = [e, d] ++ c :: b :: a :: [] := rfl
  obtain ⟨_, _, last⟩ := served.row punctual split
  have alarm : c.next = 3004 := (last d rfl).time.symm.trans (congrArg Prod.fst fourth)
  have effective : c.before.timing.effective = 3000 := by
    have shown := next
    rw [alarm, start] at shown
    exact ((UInt32.add_right_inj 4).mp shown).symm
  have short := settings_le_of_shortest begun (by rw [time, start]; rfl)
  obtain ⟨ahead, near⟩ := clears short
  obtain ⟨_, early⟩ := near (by rw [effective]; decide)
  rw [alarm, time] at ahead
  exact ⟨s, t, reachable, ran, sends, journal, punctual, e, d, c, b, a, served, first, begins,
    phase, begun, time, next, alarm, effective, short, ahead, early⟩

/-- An output with the longest break and as short a period as it may have. -/
def longBreakStart : List (Action Bench) :=
  [.perform (.attach { breakTime := 1000000, period := 0, direction := .output }),
    .perform (.sendData [0])]

/-- The break is made the shortest while it is on the line; the clock then shows the end of
the mark. -/
def shortenedRun : List (Action Bench) :=
  [.disturb (Bench.setClock 4), .perform (.interrupt .transmitTimer),
    .perform (.setBreakTime 92), .disturb (Bench.setClock 1000004),
    .perform (.interrupt .transmitTimer), .disturb (Bench.setClock 1000016)]

/-- Where the break is made shorter while it is on the line, the alarm that is set when the
bytes begin is set to a time that is over. -/
theorem next_alarm_past_of_shortened :
    ∃ s m t : Node Bench 0 0, s.Reachable ∧ s.run shortenedRun = .ok m ∧
      s.KeepsSending (shortenedRun ++ [.perform (.interrupt .transmitTimer)]) ∧
      m.act (.perform (.interrupt .transmitTimer)) = .ok t ∧
      t.link.line.journal = s.since t ++ s.link.line.journal ∧
      Journal.Punctual s.link.line.journal (s.since t) ∧
      m.link.engine.transmitter.state = .markAfterBreak ∧ m.link.line.now = 1000016 ∧
      t.link.engine.transmitter.wire = [0] ∧
      t.link.line.journal.alarm? .transmit = some 1208 ∧ isDue 1000016 1208 = true ∧
      ¬ (44 * 1 + 44 ≤ (elapsed 1208 1000016).toNat ∧ elapsed 1208 1000016 < 2147483648) := by
  have carried : (powerUp {} : Node Bench 0 0).Ends longBreakStart fun s =>
      s.KeepsSending (shortenedRun ++ [.perform (.interrupt .transmitTimer)]) ∧
      s.Ends shortenedRun fun m =>
        (m.link.engine.transmitter.state = .markAfterBreak ∧ m.link.line.now = 1000016) ∧
        ∃ t, m.act (.perform (.interrupt .transmitTimer)) = .ok t ∧
          t.link.line.journal = s.since t ++ s.link.line.journal ∧
          Journal.Punctual s.link.line.journal (s.since t) ∧
          t.link.engine.transmitter.wire = [0] ∧
          t.link.line.journal.alarm? .transmit = some 1208 := by
    decide +kernel
  obtain ⟨s, started, sends, m, ran, ⟨state, now⟩, t, acted, journal, punctual, wire, next⟩ :=
    carried
  exact ⟨s, m, t, ⟨{}, longBreakStart, started⟩, ran, sends, acted, journal, punctual, state, now,
    wire, next, by decide, by decide⟩

end Node

end Dmx512
