import Dmx512.Proofs.Link.Resting
import Dmx512.Proofs.Node.Agreement
import Dmx512.Proofs.Node.Watching

/-!
# A node has one station at a time

A station attaches where there is none and the direction pin takes its level. Where there is
one, nothing happens; where the pin refuses, the engine stays as it is, and another attempt
finds what the first one found. A station that detaches leaves its link at rest, and as long
as no other attaches the link stays so, whatever interrupts are served.
-/

namespace Dmx512.Node

open Act Link

variable {H : Type} [Hardware H] {d r : Nat} {s t u : Node H d r} {station : Station}
variable {config : Config} {answer : Answer}

/-- Whoever asks to attach is told that there is a station, and nothing else happens. -/
def Occupied (s : Node H d r) : Prop :=
  ∀ config, perform (.attach config) s = .ok (.refused (.setup .occupied), s)

def Unattended (s : Node H d r) (actions : List (Action H)) : Prop :=
  s.Throughout (·.station = none) actions

instance (s : Node H d r) (actions : List (Action H)) : Decidable (s.Unattended actions) :=
  inferInstanceAs (Decidable (s.Throughout (·.station = none) actions))

theorem Sound.occupied (h : s.Sound) (present : s.station = some station) : s.Occupied := by
  intro config
  have refuses : WP (fun _ => False) (perform (.attach config)) (fun answer t =>
      answer = .refused (.setup .occupied) ∧ t = s) s := by
    rw [perform, attach, WP.bind_iff, wp_onLink]
    apply (wp_attach_occupied config h.free (h.ready present).attached).mono
    rintro _ _ ⟨rfl, rfl⟩
    exact ⟨rfl, rfl⟩
  obtain ⟨_, _, ended, rfl, rfl⟩ := refuses.exists_ok
  exact ended

omit [Hardware H] in
theorem Sound.unattached (h : s.Sound) (absent : s.station = none) :
    s.link.cell.value.attached = false := by
  rw [h.attached, absent]
  rfl

/-- Where there is no station, attaching ends as the pin tells. -/
theorem Sound.link_attach (h : s.Sound) (absent : s.station = none) (config : Config) :
    WP (fun _ => False) (Link.attach config) (fun outcome link =>
      outcome = (if (Hardware.drive config.direction.pinLevel s.link.line.hardware).1 then
        .ok { config } else .error (.line .pin)) ∧
      s.link.Leads (·.Attaches config outcome ·) link) s.link := by
  apply (Link.wp_attach config h.free).ran.mono
  rintro outcome link ⟨ended, leads⟩
  exact ⟨(wp_attach_pin config h.free (h.unattached absent)).elim ended, leads⟩

theorem Sound.attach_driven (h : s.Sound) (absent : s.station = none)
    (driven : (Hardware.drive config.direction.pinLevel s.link.line.hardware).1 = true) :
    ∃ t, perform (.attach config) s = .ok (.done, t) ∧ t.station = some { config } := by
  have attaches : WP (fun _ => False) (perform (.attach config)) (fun answer t =>
      answer = .done ∧ t.station = some { config }) s := by
    rw [perform, attach, WP.bind_iff, wp_onLink]
    apply (h.link_attach absent config).mono
    rintro outcome link ⟨told, _⟩
    rw [if_pos driven] at told
    subst told
    exact ⟨rfl, rfl⟩
  obtain ⟨_, t, ended, rfl, attached⟩ := attaches.exists_ok
  exact ⟨t, ended, attached⟩

/-- A pin that refuses leaves the engine and the frames that wait to be read as they are. -/
theorem Sound.attach_refused (h : s.Sound) (absent : s.station = none)
    (refused : (Hardware.drive config.direction.pinLevel s.link.line.hardware).1 = false) :
    ∃ t time, perform (.attach config) s = .ok (.refused (.line .pin), t) ∧ t.station = none ∧
      t.link.cell = s.link.cell ∧ t.link.dmxStore = s.link.dmxStore ∧
      t.link.rdmStore = s.link.rdmStore ∧
      t.link.line.journal =
        ⟨time, .pin config.direction.pinLevel false⟩ :: s.link.line.journal := by
  have refuses : WP (fun _ => False) (perform (.attach config)) (fun answer t =>
      answer = .refused (.line .pin) ∧ t.station = none ∧
        s.link.Leads (·.Attaches config (.error (.line .pin)) ·) t.link) s := by
    rw [perform, attach, WP.bind_iff, wp_onLink]
    apply (h.link_attach absent config).mono
    rintro outcome link ⟨told, leads⟩
    rw [if_neg (Bool.eq_false_iff.mp refused)] at told
    subst told
    exact ⟨rfl, absent, leads⟩
  obtain ⟨_, t, ended, rfl, absent', attaches, uses⟩ := refuses.exists_ok
  obtain ⟨time, reached⟩ : ∃ time,
      t.link.scene = s.link.scene.note time (.pin config.direction.pinLevel false) := by
    generalize t.link.scene = reached at attaches
    cases attaches with
    | refused _ time => exact ⟨time, rfl⟩
  obtain ⟨readers, exclusive⟩ := Prod.mk.inj uses
  have value : t.link.cell.value = s.link.cell.value := congrArg Scene.engine reached
  have cell : t.link.cell = s.link.cell := by
    change (⟨t.link.cell.value, t.link.cell.readers, t.link.cell.exclusive⟩ : Cell Engine) = _
    rw [value, readers, exclusive]
  exact ⟨t, time, ended, absent', cell, congrArg Scene.dmxStore reached,
    congrArg Scene.rdmStore reached, congrArg Scene.journal reached⟩

/-- A station that was attached is the one that was asked for, and there was none before. -/
theorem Sound.attached_of_done (h : s.Sound)
    (done : perform (.attach config) s = .ok (.done, t)) :
    s.station = none ∧ t.station = some { config } := by
  cases present : s.station with
  | some station => cases (h.occupied present config).symm.trans done
  | none =>
      cases driven : (Hardware.drive config.direction.pinLevel s.link.line.hardware).1 with
      | false =>
          obtain ⟨_, _, refused, _⟩ := h.attach_refused present driven
          cases refused.symm.trans done
      | true =>
          obtain ⟨_, attached, same⟩ := h.attach_driven present driven
          cases attached.symm.trans done
          exact ⟨rfl, same⟩

/-- What does not detach a station leaves a node with it. -/
theorem wp_perform_isSome {operation : Operation} (stays : operation ≠ .detach) (h : s.Sound)
    (present : s.station.isSome = true) :
    WP (fun _ => True) (perform operation) (fun _ t => t.station.isSome = true) s := by
  have serves (act : Act (Attached H d r) Answer) :
      WP (fun _ => True) (onStation act) (fun _ t => t.station.isSome = true) s := by
    obtain ⟨station, present⟩ := Option.isSome_iff_exists.mp present
    exact (wp_onStation_some present).mpr ((WP.unasked _ _).mono fun _ _ _ => rfl)
  cases operation with
  | detach => contradiction
  | attach config =>
      obtain ⟨station, attached⟩ := Option.isSome_iff_exists.mp present
      rw [WP, h.occupied attached config]
      exact present
  | interrupt interrupt =>
      rw [perform, WP.bind_iff, wp_onLink]
      exact (WP.unasked _ _).mono fun _ _ _ => present
  | counters => exact present
  | _ => exact serves _

/-- As long as the station does not detach, it stays. -/
theorem Sound.run_isSome (h : s.Sound) (present : s.station.isSome = true)
    {actions : List (Action H)} (stays : .perform .detach ∉ actions)
    (ran : s.run actions = .ok t) : t.station.isSome = true := by
  induction actions generalizing s with
  | nil =>
      cases ran
      exact present
  | cons action rest ih =>
      rw [List.mem_cons, not_or] at stays
      obtain ⟨other, others⟩ := stays
      obtain ⟨m, acted, ran'⟩ := run_cons ran
      refine ih ((h.act acted).sound h) ?_ others ran'
      cases action with
      | disturb change =>
          cases acted
          exact present
      | perform operation =>
          obtain ⟨answer, ended⟩ := perform_of_act acted
          exact (wp_perform_isSome (fun same => other (same ▸ rfl)) h present).elim ended

/-- As long as the station does not detach, no other can attach. -/
theorem Sound.occupied_run (h : s.Sound) (present : s.station.isSome = true)
    {actions : List (Action H)} (stays : .perform .detach ∉ actions)
    (ran : s.run actions = .ok t) : t.Occupied := by
  obtain ⟨station, attached⟩ := Option.isSome_iff_exists.mp (h.run_isSome present stays ran)
  exact (h.run ran).occupied attached

omit [Hardware H] in
/-- A node without a station is at rest. -/
theorem Sound.atRest_of_absent (h : s.Sound) (watchful : s.Watchful) (absent : s.station = none) :
    s.link.scene.AtRest :=
  h.atRest watchful.watched (h.sound.stopped_of_absent (h.unattached absent))

/-- Whatever is under way, a station detaches at once. -/
theorem perform_detach (h : s.Sound) (present : s.station = some station) :
    ∃ t, perform .detach s = .ok (.done, t) ∧ t.station = none := by
  have detaches : WP (fun _ => False) (perform .detach) (fun answer t =>
      answer = .done ∧ t.station = none) s :=
    (wp_detach_some present).mpr ((Link.wp_detach h.free).mono fun _ _ _ => ⟨rfl, rfl⟩)
  obtain ⟨_, t, ended, rfl, absent⟩ := detaches.exists_ok
  exact ⟨t, ended, absent⟩

/-- Where there is no station, every operation ends, and does nothing on the line unless one
attaches. -/
theorem wp_perform_dozes (h : s.Sound) (absent : s.station = none) (operation : Operation) :
    WP (fun _ => False) (perform operation)
      (fun _ t => t.station = none → s.link.scene.Dozes t.link.scene) s := by
  have idle (act : Act (Attached H d r) Answer) :
      WP (fun _ => False) (onStation act)
        (fun _ t => t.station = none → s.link.scene.Dozes t.link.scene) s :=
    (wp_onStation_none absent).mpr fun _ => .refl _
  cases operation with
  | detach => exact (wp_detach_none absent).mpr fun _ => .refl _
  | interrupt interrupt =>
      rw [perform, WP.bind_iff, wp_onLink]
      have serves : Link.Does (fun _ => False) Link.free (· = .interrupt)
          (Link.serve interrupt : Act (Link H d r) Unit) := .serve (by rfl) interrupt
      exact (serves s.link h.free h.sound).mono fun _ _ moves _ =>
        moves.steps.dozes h.wired (h.sound.stopped_of_absent (h.unattached absent))
  | attach config =>
      rw [perform, attach, WP.bind_iff, wp_onLink]
      apply (Link.wp_attach config h.free).mono
      rintro outcome link ⟨attaches, _⟩
      cases outcome with
      | error refusal => exact fun _ => attaches.dozes
      | ok station => rintro ⟨⟩
  | counters => exact fun _ => .refl _
  | _ => exact idle _

/-- As long as no station attaches, a run ends and does nothing on the line. -/
theorem Sound.run_dozes (h : s.Sound) {actions : List (Action H)}
    (unattended : s.Unattended actions) :
    ∃ t, s.run actions = .ok t ∧ s.link.scene.Dozes t.link.scene := by
  induction actions generalizing s with
  | nil => exact ⟨s, rfl, .refl _⟩
  | cons action rest ih =>
      obtain ⟨m, acted, dozes⟩ : ∃ m, s.act action = .ok m ∧
          (m.station = none → s.link.scene.Dozes m.link.scene) := by
        cases action with
        | disturb change => exact ⟨s.disturb change, rfl, fun _ => .refl _⟩
        | perform operation =>
            obtain ⟨_, m, ended, dozes⟩ :=
              (wp_perform_dozes h unattended.start operation).exists_ok
            exact ⟨m, act_of_perform ended, dozes⟩
      have unattended' : m.Unattended rest := unattended.rest acted
      obtain ⟨t, ran, dozes'⟩ := ih ((h.act acted).sound h) unattended'
      refine ⟨t, ?_, (dozes unattended'.start).trans dozes'⟩
      rw [Node.run, acted]
      exact ran

/-- Exclusive attaching. The engine tells whether a node has a station. Where it has one, no
other attaches: whoever asks is told so, and nothing else happens. The station may detach at any
time, and then both sequencers are idle, the line is released, no interrupt and no alarm is
asked for, and until the next one attaches, whatever is served, no frame is published, no byte
written and no break put on the line. Where there is no station, one attaches if the pin takes
its level, and is the only one until it detaches; if the pin does not, the engine stays exactly
as it is, and an attempt whose level the pin takes succeeds. -/
theorem Reachable.attaches_exclusively (reachable : s.Reachable) :
    s.link.engine.attached = s.station.isSome ∧
    (∀ station, s.station = some station → s.Occupied ∧
      ∃ t, perform .detach s = .ok (.done, t) ∧ t.station = none ∧
        t.link.engine.attached = false ∧ t.link.scene.AtRest ∧
        ∀ actions, t.Unattended actions → ∃ u new, t.run actions = .ok u ∧
          u.link.line.journal = new ++ t.link.line.journal ∧ new.Inert ∧ u.link.scene.AtRest) ∧
    (s.station = none → ∀ config : Config,
      ((Hardware.drive config.direction.pinLevel s.link.line.hardware).1 = true →
        ∃ t, perform (.attach config) s = .ok (.done, t) ∧ t.station = some { config } ∧
          ∀ actions u, .perform .detach ∉ actions → t.run actions = .ok u → u.Occupied) ∧
      ((Hardware.drive config.direction.pinLevel s.link.line.hardware).1 = false →
        ∃ t time, perform (.attach config) s = .ok (.refused (.line .pin), t) ∧
          t.station = none ∧ t.link.cell = s.link.cell ∧ t.link.dmxStore = s.link.dmxStore ∧
          t.link.rdmStore = s.link.rdmStore ∧
          t.link.line.journal =
            ⟨time, .pin config.direction.pinLevel false⟩ :: s.link.line.journal ∧
          ∀ (change : H → H) (later : Config),
            (Hardware.drive later.direction.pinLevel (change t.link.line.hardware)).1 = true →
            ∃ u, perform (.attach later) (t.disturb change) = .ok (.done, u) ∧
              u.station = some { config := later })) := by
  have sound := reachable.sound
  refine ⟨sound.attached, fun station present => ⟨sound.occupied present, ?_⟩,
    fun absent config => ⟨fun driven => ?_, fun refused => ?_⟩⟩
  · obtain ⟨t, ended, absent⟩ := perform_detach sound present
    have reachable' := reachable.act (act_of_perform ended)
    refine ⟨t, ended, absent, reachable'.sound.unattached absent,
      reachable'.sound.atRest_of_absent reachable'.watchful absent, fun actions unattended => ?_⟩
    obtain ⟨u, ran, new, journal, inert⟩ := reachable'.sound.run_dozes unattended
    have absent' : u.station = none := by
      refine unattended actions.length u ?_
      rw [List.take_length]
      exact ran
    have reached := reachable'.run ran
    exact ⟨u, new, ran, journal, inert, reached.sound.atRest_of_absent reached.watchful absent'⟩
  · obtain ⟨t, ended, attached⟩ := sound.attach_driven absent driven
    have sound' := (reachable.act (act_of_perform ended)).sound
    exact ⟨t, ended, attached, fun actions u stays ran =>
      sound'.occupied_run (Option.isSome_of_mem attached) stays ran⟩
  · obtain ⟨t, time, ended, absent', cell, dmxStore, rdmStore, journal⟩ :=
      sound.attach_refused absent refused
    refine ⟨t, time, ended, absent', cell, dmxStore, rdmStore, journal,
      fun change later driven => ?_⟩
    have disturbed : t.act (.disturb change) = .ok (t.disturb change) := rfl
    have reachable' := (reachable.act (act_of_perform ended)).act disturbed
    exact reachable'.sound.attach_driven absent' driven

/-- Bytes arrive at a line that nobody has, every interrupt is served, and the pin is about to
refuse a level. -/
def unattendedRun : List (Action Bench) :=
  [.disturb Bench.receiveBreak, .disturb (Bench.receive [0x00, 0x07] 0x01),
    .perform (.interrupt .uart), .perform (.interrupt .transmitTimer),
    .perform (.interrupt .receiveTimeout), .disturb (Bench.listPinFailures [true])]

/-- A station that has bytes of a frame waiting detaches, the next one is refused by the pin,
and one behind it attaches. -/
theorem Reachable.attaches_exclusively_data :
    ∃ s t u v w : Node Bench 0 0, s.Reachable ∧ s.station.isSome = true ∧
      s.link.engine.transmitter.state = .data ∧ s.Occupied ∧
      perform .detach s = .ok (.done, t) ∧ t.link.scene.AtRest ∧
      t.run unattendedRun = .ok u ∧ u.link.scene.AtRest ∧
      perform (.attach {}) u = .ok (.refused (.line .pin), v) ∧ v.link.cell = u.link.cell ∧
      perform (.attach {}) (v.disturb (Bench.listPinFailures [])) = .ok (.done, w) ∧
      w.station = some { config := {} } := by
  have carried : (powerUp {} : Node Bench 0 0).Ends (refusedTurn.take 6) fun s =>
      s.station.isSome = true ∧ s.link.engine.transmitter.state = .data ∧
        s.Ends [.perform .detach] fun t => t.Unattended unattendedRun ∧
          t.Ends unattendedRun fun u =>
            u.station = none ∧ (Hardware.drive false u.link.line.hardware).1 = false := by
    decide +kernel
  obtain ⟨s, ran, present, data, t, ran', unattended, u, ran'', absent, refuses⟩ := carried
  have reachable : s.Reachable := ⟨{}, _, ran⟩
  obtain ⟨station, attached⟩ := Option.isSome_iff_exists.mp present
  obtain ⟨occupied, m, detached, _, _, atRest, keeps⟩ :=
    (Reachable.attaches_exclusively reachable).2.1 station attached
  obtain ⟨_, acted, left⟩ := run_cons ran'
  obtain rfl := Except.ok.inj left
  obtain rfl := Except.ok.inj ((act_of_perform detached).symm.trans acted)
  obtain ⟨_, _, ran''', _, _, atRest'⟩ := keeps unattendedRun unattended
  obtain rfl := Except.ok.inj (ran''.symm.trans ran''')
  have reachable' : u.Reachable := (reachable.act acted).run ran''
  obtain ⟨v, _, refused, _, cell, _, _, _, succeeds⟩ :=
    ((Reachable.attaches_exclusively reachable').2.2 absent {}).2 refuses
  obtain ⟨w, done, attached'⟩ := succeeds (Bench.listPinFailures []) {} rfl
  exact ⟨s, m, u, v, w, reachable, present, data, occupied, detached, atRest, ran'', atRest',
    refused, cell, done, attached'⟩

end Dmx512.Node
