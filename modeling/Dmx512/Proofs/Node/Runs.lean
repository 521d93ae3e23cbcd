import Dmx512.Proofs.Node.Safety

/-!
# Runs make steps

The invariant of a link holds of every reachable node. While the sequencer of the
output keeps running, a run leaves it alone and queues exactly the frames that it
was given to send.

What holds of a run is decided by carrying it out.
-/

namespace Dmx512

/-- What holds of a result can be found out by computing it. -/
instance Checked.decidableForall {α : Type} (p : α → Prop) [DecidablePred p] :
    (c : Checked α) → Decidable (∀ a, c = .ok a → p a)
  | .error _ => .isTrue nofun
  | .ok a => decidable_of_iff (p a) ⟨fun h _ same => Except.ok.inj same ▸ h, fun h => h a rfl⟩

instance Checked.decidableExists {α : Type} (p : α → Prop) [DecidablePred p] :
    (c : Checked α) → Decidable (∃ a, c = .ok a ∧ p a)
  | .error _ => .isFalse nofun
  | .ok a => decidable_of_iff (p a)
    ⟨fun h => ⟨a, rfl, h⟩, fun ⟨_, same, h⟩ => Except.ok.inj same ▸ h⟩

namespace Node

open Act Link

variable {H : Type} [Hardware H] {d r : Nat} {s t : Node H d r}

/-- A run is a first step and a run from where it leads. -/
theorem run_cons {action : Action H} {rest : List (Action H)}
    (ran : s.run (action :: rest) = .ok t) :
    ∃ m, s.act action = .ok m ∧ m.run rest = .ok t := by
  rw [run] at ran
  exact Checked.bind_ok ran

theorem Sound.run (h : s.Sound) {actions : List (Action H)} (ran : s.run actions = .ok t) :
    t.Sound := by
  induction actions generalizing s with
  | nil =>
      cases ran
      exact h
  | cons action rest ih =>
      obtain ⟨m, acted, ran'⟩ := run_cons ran
      exact ih ((h.act acted).sound h) ran'

/-- A run that does not end waits on a clock that stands still. -/
theorem Sound.run_stalls (h : s.Sound) {actions : List (Action H)} {fault : Fault}
    (stopped : s.run actions = .error fault) : fault.IsStall := by
  induction actions generalizing s with
  | nil => cases stopped
  | cons action rest ih =>
      rw [Node.run] at stopped
      cases acted : s.act action with
      | error other =>
          rw [acted] at stopped
          cases stopped
          exact h.act_stalls acted
      | ok m =>
          rw [acted] at stopped
          exact ih ((h.act acted).sound h) stopped

/-- A run makes steps of the link. -/
theorem Sound.run_moves (h : s.Sound) {actions : List (Action H)} (ran : s.run actions = .ok t) :
    Moves (fun _ => True) s.link t.link := by
  induction actions generalizing s with
  | nil =>
      cases ran
      exact .refl _
  | cons action rest ih =>
      obtain ⟨m, acted, ran'⟩ := run_cons ran
      have performed := h.act acted
      exact (performed.moves.mono fun _ _ => trivial).trans (ih (performed.sound h) ran')

/-- A run is a front part of it and the rest. -/
theorem run_append {first rest : List (Action H)} {m : Node H d r} (ran : s.run first = .ok m) :
    s.run (first ++ rest) = m.run rest := by
  induction first generalizing s with
  | nil =>
      cases ran
      rfl
  | cons action others ih =>
      obtain ⟨u, acted, ran'⟩ := run_cons ran
      rw [List.cons_append, run, acted]
      exact ih ran'

/-- What an action makes of a reachable node is reachable. -/
theorem Reachable.act (h : s.Reachable) {action : Action H} (acted : s.act action = .ok t) :
    t.Reachable := by
  obtain ⟨hardware, actions, ran⟩ := h
  refine ⟨hardware, actions ++ [action], (run_append ran).trans ?_⟩
  rw [run, acted]
  rfl

/-- What a run makes of a reachable node is reachable. -/
theorem Reachable.run (reachable : s.Reachable) {actions : List (Action H)}
    (ran : s.run actions = .ok t) : t.Reachable := by
  obtain ⟨hardware, before, started⟩ := reachable
  exact ⟨hardware, before ++ actions, (run_append started).trans ran⟩

/-- The invariant holds of every node that a run from power-up leads to. -/
theorem Reachable.sound (h : s.Reachable) : s.Sound := by
  obtain ⟨hardware, actions, ran⟩ := h
  exact (Sound.powerUp hardware).run ran

/-- From power-up to a reachable node the link makes steps. -/
theorem Reachable.steps (h : s.Reachable) :
    ∃ hardware, Steps (fun _ => True) (powerUp hardware : Node H d r).link.scene s.link.scene := by
  obtain ⟨hardware, actions, ran⟩ := h
  exact ⟨hardware, ((Sound.powerUp hardware).run_moves ran).steps⟩

section Induction

variable {holds : Node H d r → Prop}
  (step : ∀ s t action, s.Sound → holds s → s.act action = .ok t → holds t)
include step

/-- What every action keeps, a run keeps. -/
theorem Sound.run_keeps (h : s.Sound) (held : holds s) {actions : List (Action H)}
    (ran : s.run actions = .ok t) : holds t := by
  induction actions generalizing s with
  | nil =>
      cases ran
      exact held
  | cons action rest ih =>
      obtain ⟨m, acted, ran'⟩ := run_cons ran
      exact ih ((h.act acted).sound h) (step s m action h held acted) ran'

/-- What holds at power-up and is kept by every action holds of every reachable node. -/
theorem Reachable.induct (start : ∀ hardware, holds (powerUp hardware))
    (reachable : s.Reachable) : holds s := by
  obtain ⟨hardware, actions, ran⟩ := reachable
  exact (Sound.powerUp hardware).run_keeps step (start hardware) ran

end Induction

/-- A run ends, and in a node of which `p` holds. -/
def Ends (s : Node H d r) (actions : List (Action H)) (p : Node H d r → Prop) : Prop :=
  ∃ t, s.run actions = .ok t ∧ p t

instance (s : Node H d r) (actions : List (Action H)) (p : Node H d r → Prop) [DecidablePred p] :
    Decidable (s.Ends actions p) :=
  inferInstanceAs (Decidable (∃ t, s.run actions = .ok t ∧ p t))

/-- At the start of a run and behind every action of it that ends, `p` holds. -/
def Throughout (p : Node H d r → Prop) (s : Node H d r) (actions : List (Action H)) : Prop :=
  ∀ n m, s.run (actions.take n) = .ok m → p m

section Throughout

variable {p : Node H d r → Prop}

theorem Throughout.start {actions : List (Action H)} (h : s.Throughout p actions) : p s :=
  h 0 s rfl

theorem Throughout.rest {action : Action H} {rest : List (Action H)} {m : Node H d r}
    (h : s.Throughout p (action :: rest)) (acted : s.act action = .ok m) :
    m.Throughout p rest := by
  intro n u ran
  apply h (n + 1) u
  rw [List.take_succ_cons, run, acted]
  exact ran

theorem throughout_nil : s.Throughout p ([] : List (Action H)) ↔ p s := by
  refine ⟨fun h => h.start, fun holds n m ran => ?_⟩
  rw [List.take_nil] at ran
  cases ran
  exact holds

theorem throughout_cons {action : Action H} {rest : List (Action H)} :
    s.Throughout p (action :: rest) ↔
      p s ∧ ∀ m, s.act action = .ok m → m.Throughout p rest := by
  refine ⟨fun h => ⟨h.start, fun m => h.rest⟩, ?_⟩
  rintro ⟨holds, h⟩ n u ran
  cases n with
  | zero =>
      cases ran
      exact holds
  | succ n =>
      obtain ⟨m, acted, ran'⟩ := run_cons ran
      exact h m acted n u ran'

/-- What holds throughout a run can be found out by carrying it out. -/
instance Throughout.decide [DecidablePred p] (s : Node H d r) :
    (actions : List (Action H)) → Decidable (s.Throughout p actions)
  | [] => decidable_of_iff _ throughout_nil.symm
  | _ :: rest =>
    have (m : Node H d r) : Decidable (m.Throughout p rest) := Throughout.decide m rest
    decidable_of_iff _ throughout_cons.symm

end Throughout

/-- A run during which the sequencer of the output keeps running. -/
def KeepsSending (s : Node H d r) (actions : List (Action H)) : Prop :=
  ∀ n m, s.run (actions.take n) = .ok m → m.link.cell.value.sending = true

theorem KeepsSending.start {actions : List (Action H)} (h : s.KeepsSending actions) :
    s.link.cell.value.sending = true :=
  Throughout.start h

theorem KeepsSending.rest {action : Action H} {rest : List (Action H)} {m : Node H d r}
    (h : s.KeepsSending (action :: rest)) (acted : s.act action = .ok m) :
    m.KeepsSending rest :=
  Throughout.rest h acted

instance KeepsSending.decide (s : Node H d r) (actions : List (Action H)) :
    Decidable (s.KeepsSending actions) :=
  inferInstanceAs (Decidable (s.Throughout (·.link.cell.value.sending = true) actions))

omit [Hardware H] in
/-- A link that sends has a station. -/
theorem Sound.exists_station (h : s.Sound) (sending : s.link.cell.value.sending = true) :
    ∃ station, s.station = some station := by
  simp only [Engine.sending, Bool.and_eq_true] at sending
  exact Option.isSome_iff_exists.mp (h.attached.symm.trans (h.sound.attached sending.1))

/-- A run that keeps sending leaves the sequencer alone, and queues the frames that
it was given to send. -/
theorem Sound.run_sending (h : s.Sound) {actions : List (Action H)} (ran : s.run actions = .ok t)
    (sends : s.KeepsSending actions) :
    Moves Step.Kind.IsCalm s.link t.link ∧
      t.link.line.journal.queued = s.link.line.journal.queued ++ actions.flatMap Action.frames := by
  induction actions generalizing s with
  | nil =>
      cases ran
      exact ⟨.refl _, (List.append_nil _).symm⟩
  | cons action rest ih =>
      obtain ⟨m, acted, ran'⟩ := run_cons ran
      have performed := h.act acted
      obtain ⟨moves, queued⟩ := ih (performed.sound h) ran' (sends.rest acted)
      obtain ⟨station, present⟩ := h.exists_station sends.start
      have calm := (performed.calm sends.start (sends.rest acted).start).mono fun _ => And.left
      refine ⟨calm.trans moves, ?_⟩
      rw [queued, performed.queued (Option.isSome_of_mem present), List.flatMap_cons,
        List.append_assoc]

end Node

end Dmx512
