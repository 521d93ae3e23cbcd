import Dmx512.Proofs.Link.Accounting
import Dmx512.Proofs.Link.Waiting
import Dmx512.Proofs.Node.Attaching
import Dmx512.Proofs.Node.Reception
import Dmx512.Proofs.Node.Tuning

/-!
# Packets are accounted for

At every node that a run leads to, the counters of the link are what its journal tells, and
every frame that was published is accounted for by what was received. The counters run on from
power-up; a station that resets them keeps the counts that it found, and subtracts them from
then on. Counters and differences wrap alike, so what a station is answered is what was counted
since, whatever the counters have gone through.
-/

namespace Dmx512

open Standard

def Sampler.baselines (view : Sampler) : UInt32 × UInt32 := (view.dmxBaseline, view.rdmBaseline)

/-- A sample leaves the counts at the last reset alone. -/
theorem Sampler.baselines_of_sample {view sampled : Sampler} {counters : Counters} {now : Micros}
    (ended : view.sample counters now = .ok sampled) : sampled.baselines = view.baselines := by
  rw [sample] at ended
  split at ended
  · cases ended
    rfl
  · dsimp only at ended
    split at ended
    · obtain ⟨rate, _, done⟩ := Checked.bind_ok ended
      cases done
      rfl
    · cases ended
      rfl

namespace Node

open Act Link

variable {H : Type} {d r : Nat} {s m t u : Node H d r} {base : UInt8 → Nat}

/-- How many packets with a start code a node has counted. -/
def packets (s : Node H d r) (code : UInt8) : Nat := s.link.line.journal.packets code

/-- The station of a node subtracts `base` from what was counted. -/
def Subtracts (s : Node H d r) (base : UInt8 → Nat) : Prop :=
  s.station.map (·.view.baselines) =
    some (UInt32.ofNat (base dmxStartCode), UInt32.ofNat (base rdmStartCode))

variable [Hardware H]

/-- At every node, what its link counts is what the journal tells. -/
theorem Reachable.tallies (reachable : s.Reachable) :
    s.link.scene.Tallies ∧ s.link.scene.TellsOverruns := by
  obtain ⟨hardware, steps⟩ := reachable.steps
  have start : (powerUp hardware : Node H d r).Sound := .powerUp hardware
  have fresh : (powerUp hardware : Node H d r).link.scene.Tallies :=
    ⟨.of_bare (.inl rfl) (iff_of_false nofun nofun) rfl, Journal.accounted_nil⟩
  exact ⟨steps.tallies start.sound start.wired fresh, steps.tellsOverruns start.sound rfl⟩

theorem Reachable.dmxPackets_eq (reachable : s.Reachable) :
    s.link.counters.dmxPackets = UInt32.ofNat (s.packets dmxStartCode) :=
  congrArg Prod.fst reachable.tallies.1.receiver.packets

theorem Reachable.rdmPackets_eq (reachable : s.Reachable) :
    s.link.counters.rdmPackets = UInt32.ofNat (s.packets rdmStartCode) :=
  congrArg Prod.snd reachable.tallies.1.receiver.packets

theorem Sound.packets_le_of_run (h : s.Sound) {actions : List (Action H)}
    (ran : s.run actions = .ok t) (code : UInt8) : s.packets code ≤ t.packets code := by
  obtain ⟨new, older⟩ := (h.run_moves ran).steps.journal_suffix
  have split : t.link.line.journal = new ++ s.link.line.journal := older.symm
  rw [packets, packets, split]
  exact Journal.packets_le new _ code

/-- A station begins to count: it resets the counters, or it attaches and counts from
power-up on. -/
inductive CountsFrom (s : Node H d r) : (UInt8 → Nat) → Node H d r → Prop where
  | reset {t : Node H d r} (done : perform .resetCounters s = .ok (.done, t)) :
      CountsFrom s s.packets t
  | attach {t : Node H d r} {config : Config}
      (done : perform (.attach config) s = .ok (.done, t)) : CountsFrom s (fun _ => 0) t

theorem CountsFrom.exists_action (h : s.CountsFrom base t) :
    ∃ action, s.act action = .ok t := by
  cases h with
  | reset done | attach done => exact ⟨_, act_of_perform done⟩

theorem CountsFrom.le (h : s.CountsFrom base t) (code : UInt8) : base code ≤ s.packets code := by
  cases h with
  | reset => exact Nat.le_refl _
  | attach => exact Nat.zero_le _

theorem CountsFrom.subtracts (h : s.CountsFrom base t) (reachable : s.Reachable) :
    t.Subtracts base := by
  cases h with
  | reset done =>
      cases present : s.station with
      | none =>
          have answers : WP (fun _ => False) (perform .resetCounters)
              (fun answer _ => answer = .noStation) s := (wp_onStation_none present).mpr rfl
          cases answers.elim done
      | some station =>
          have resets : WP (fun _ => False) (perform .resetCounters) (fun _ t =>
              t.station.map (·.view.baselines) =
                some (s.link.counters.dmxPackets, s.link.counters.rdmPackets)) s :=
            (wp_onStation_some present).mpr rfl
          rw [Subtracts, resets.elim done, reachable.dmxPackets_eq, reachable.rdmPackets_eq]
  | attach done =>
      obtain ⟨_, attached⟩ := reachable.sound.attached_of_done done
      rw [Subtracts, attached]
      rfl

/-- Only resetting the counters changes what a station subtracts. -/
theorem Sound.act_subtracts (h : s.Sound) (subtracts : s.Subtracts base) {action : Action H}
    (counting : action ≠ .perform .resetCounters) (stays : action ≠ .perform .detach)
    (acted : s.act action = .ok t) : t.Subtracts base := by
  cases action with
  | disturb change =>
      cases acted
      exact subtracts
  | perform operation =>
      obtain ⟨answer, ended⟩ := perform_of_act acted
      obtain ⟨station, present, _⟩ := Option.map_eq_some_iff.mp subtracts
      by_cases attaches : ∃ config, operation = .attach config
      · obtain ⟨config, rfl⟩ := attaches
        cases (h.occupied present config).symm.trans ended
        exact subtracts
      · have kept := wp_perform_keeps (s := s) (·.view.baselines) (fun _ _ _ => rfl)
          (fun _ _ _ => rfl) (fun _ _ _ _ _ sampled => Sampler.baselines_of_sample sampled)
          (fun same => absurd (congrArg Action.perform same) counting) (fun _ _ _ _ _ => rfl)
          (fun _ => ⟨fun config same => attaches ⟨config, same⟩, fun _ _ => rfl⟩)
          (fun same => stays (congrArg Action.perform same))
        rw [Subtracts, kept.elim ended]
        exact subtracts

theorem Sound.run_subtracts (h : s.Sound) (subtracts : s.Subtracts base)
    {actions : List (Action H)} (counting : .perform .resetCounters ∉ actions)
    (stays : .perform .detach ∉ actions) (ran : s.run actions = .ok t) : t.Subtracts base := by
  induction actions generalizing s with
  | nil =>
      cases ran
      exact subtracts
  | cons action rest ih =>
      rw [List.mem_cons, not_or] at counting stays
      obtain ⟨m, acted, ran'⟩ := run_cons ran
      have subtracts' := h.act_subtracts subtracts (Ne.symm counting.1) (Ne.symm stays.1) acted
      exact ih ((h.act acted).sound h) subtracts' counting.2 stays.2 ran'

/-- A station is answered what it sees of the counters that the sample leaves. -/
theorem Sound.statistics_of_subtracts (h : s.Sound) (subtracts : s.Subtracts base) :
    ∃ (view : Sampler) (t : Node H d r),
      perform .statistics s = .ok (.statistics (view.snapshot t.link.counters), t) ∧
      view.baselines =
        (UInt32.ofNat (base dmxStartCode), UInt32.ofNat (base rdmStartCode)) := by
  obtain ⟨station, present, baselines⟩ := Option.map_eq_some_iff.mp subtracts
  have answers : WP (fun _ => False) (perform .statistics) (fun answer t => ∃ view : Sampler,
      answer = .statistics (view.snapshot t.link.counters) ∧
      view.baselines =
        (UInt32.ofNat (base dmxStartCode), UInt32.ofNat (base rdmStartCode))) s := by
    rw [perform, wp_onStation_some present, WP.bind_iff, Attached.statistics, WP.bind_iff]
    apply Attached.wp_sample
    apply (Link.wp_foregroundClock h.free h.sound).mono
    intro now link _ view sampled
    exact ⟨view, rfl, (Sampler.baselines_of_sample sampled).trans baselines⟩
  obtain ⟨_, t, ended, view, rfl, seen⟩ := answers.exists_ok
  exact ⟨view, t, ended, seen⟩

/-- Packet accounting. The counters of a link tell, up to wrapping, how many breaks had their
start code as the next thing that the receiver was told, and how many transmit alarms were late.
Signals are heard only while bytes are received, and every frame that was published is accounted
for: one that began with a start code by the start code counted last, as its first, and a discovery
response by bytes of which none was counted. From where a station resets the counters, or from
power-up where it attached and did not, it is answered, up to wrapping, how many packets of each
kind were counted since. -/
theorem Reachable.packets_accounted (reachable : s.Reachable) :
    (∃ counters, perform .counters s = .ok (.counters counters, s) ∧
      counters.dmxPackets = UInt32.ofNat (s.packets dmxStartCode) ∧
      counters.rdmPackets = UInt32.ofNat (s.packets rdmStartCode) ∧
      counters.transmitOverruns = UInt32.ofNat s.link.line.journal.lateAlarms) ∧
    s.link.line.journal.Accounted ∧
    ∀ base m, s.CountsFrom base m → ∀ actions t, .perform .resetCounters ∉ actions →
      .perform .detach ∉ actions → m.run actions = .ok t →
      ∃ snapshot u dmx rdm, perform .statistics t = .ok (.statistics snapshot, u) ∧
        u.packets dmxStartCode = base dmxStartCode + dmx ∧
        u.packets rdmStartCode = base rdmStartCode + rdm ∧
        snapshot.dmxPackets = UInt32.ofNat dmx ∧ snapshot.rdmPackets = UInt32.ofNat rdm := by
  refine ⟨⟨s.link.counters, rfl, reachable.dmxPackets_eq, reachable.rdmPackets_eq,
    reachable.tallies.2⟩, reachable.tallies.1.accounted, ?_⟩
  intro base m counts actions t counting stays ran
  obtain ⟨action, begun⟩ := counts.exists_action
  have reachable' := reachable.act begun
  have subtracts := reachable'.sound.run_subtracts (counts.subtracts reachable) counting stays ran
  obtain ⟨view, u, ended, seen⟩ := (reachable'.run ran).sound.statistics_of_subtracts subtracts
  have reachable'' : u.Reachable := (reachable'.run ran).act (act_of_perform ended)
  -- All that was counted before is counted still, and wraps alike.
  have more (code : UInt8) : ∃ n, u.packets code = base code + n ∧
      UInt32.ofNat (u.packets code) - UInt32.ofNat (base code) = UInt32.ofNat n := by
    have whole : s.run (action :: (actions ++ [.perform .statistics])) = .ok u := by
      rw [Node.run, begun]
      refine (run_append ran).trans ?_
      rw [Node.run, act_of_perform ended]
      rfl
    obtain ⟨n, split⟩ := Nat.exists_eq_add_of_le
      (Nat.le_trans (counts.le code) (reachable.sound.packets_le_of_run whole code))
    refine ⟨n, split, ?_⟩
    rw [split, UInt32.ofNat_add, UInt32.add_comm, UInt32.add_sub_cancel]
  obtain ⟨dmxCount, dmxSplit, dmxSince⟩ := more dmxStartCode
  obtain ⟨rdmCount, rdmSplit, rdmSince⟩ := more rdmStartCode
  obtain ⟨dmxSeen, rdmSeen⟩ := Prod.mk.inj seen
  refine ⟨_, u, dmxCount, rdmCount, ended, dmxSplit, rdmSplit, ?_, ?_⟩
  · rw [Sampler.snapshot, reachable''.dmxPackets_eq, dmxSeen, dmxSince]
  · rw [Sampler.snapshot, reachable''.rdmPackets_eq, rdmSeen, rdmSince]

/-- A station is told slots and then a message, resets the counters and is told slots again. -/
theorem Reachable.packets_accounted_reset :
    ∃ (s m t u : Node Bench 0 0) (later earlier : Journal) (time : Micros) (snapshot : Snapshot),
      s.Reachable ∧ s.link.counters.dmxPackets = 1 ∧ s.link.counters.rdmPackets = 1 ∧
      s.link.line.journal = later ++
        ⟨time, .published (.rdm { data := [0xCC, 0x01, 0x03, 0x00, 0xD0] })⟩ :: earlier ∧
      earlier.Opened rdmStartCode ∧
      perform .resetCounters s = .ok (.done, m) ∧ m.run slotsRun = .ok t ∧
      perform .statistics t = .ok (.statistics snapshot, u) ∧ u.packets dmxStartCode = 2 ∧
      snapshot.dmxPackets = 1 ∧ snapshot.rdmPackets = 0 := by
  have carried : (powerUp {} : Node Bench 0 0).Ends (benchStart ++ slotsRun ++ messageRun) fun s =>
      (s.packets dmxStartCode = 1 ∧ s.packets rdmStartCode = 1) ∧
      (∃ entry ∈ s.link.line.journal,
        entry.event = .published (.rdm { data := [0xCC, 0x01, 0x03, 0x00, 0xD0] })) ∧
      ∃ reset, perform .resetCounters s = .ok reset ∧ reset.1 = .done ∧
        reset.2.Ends slotsRun fun t => t.Ends [.perform .statistics] fun u =>
          u.packets dmxStartCode = 2 ∧ u.packets rdmStartCode = 1 := by
    decide +kernel
  obtain ⟨s, started, ⟨dmxOne, rdmOne⟩, ⟨⟨time, _⟩, mem, rfl⟩, ⟨_, m⟩, reset, rfl, t, ran, v,
    sampled, dmxTwo, rdmStill⟩ := carried
  have reachable : s.Reachable := ⟨{}, _, started⟩
  obtain ⟨⟨counters, read, dmxRead, rdmRead, _⟩, accounted, since⟩ :=
    Reachable.packets_accounted reachable
  obtain ⟨rfl⟩ : s.link.counters = counters := by cases read; rfl
  obtain ⟨later, earlier, split⟩ := List.append_of_mem mem
  have opened := (accounted later _ earlier split).2 _ rfl
  obtain ⟨snapshot, u, dmx, rdm, ended, dmxSince, rdmSince, dmxSeen, rdmSeen⟩ :=
    since s.packets m (.reset reset) slotsRun t (by simp [slotsRun]) (by simp [slotsRun]) ran
  obtain ⟨_, acted, left⟩ := run_cons sampled
  obtain rfl := Except.ok.inj left
  obtain rfl := Except.ok.inj ((act_of_perform ended).symm.trans acted)
  obtain rfl : dmx = 1 := by omega
  obtain rfl : rdm = 0 := by omega
  exact ⟨s, m, t, u, later, earlier, time, snapshot, reachable, dmxRead.trans (by rw [dmxOne]; rfl),
    rdmRead.trans (by rw [rdmOne]; rfl), split, opened, reset, ran, ended, dmxTwo, dmxSeen, rdmSeen⟩

end Node

end Dmx512
