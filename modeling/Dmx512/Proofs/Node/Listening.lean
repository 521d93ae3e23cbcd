import Dmx512.Proofs.Link.Arrivals
import Dmx512.Proofs.Link.Hearing
import Dmx512.Proofs.Node.Runs

/-!
# Runs that listen

A run listens that only serves interrupts, while the hardware does what it likes.
It always ends, and the receiver lives through a story that the journal records.
On hardware with a receive queue the causes of that story are what has arrived, in
order, with the timeouts served in between.
-/

namespace Dmx512.Node

open Act Link

variable {H : Type} [Hardware H] {d r : Nat} {s t : Node H d r} {actions : List (Action H)}

/-- Interrupts are served, and the hardware may change. -/
def Action.Listens : Action H → Prop
  | .perform (.interrupt _) | .disturb _ => True
  | _ => False

/-- In a run that listens, interrupts take from the receive queue what they hear,
and leave the rest of it there. Between them the queue changes as the hardware
likes. -/
inductive Takes (queue : ReceiveQueue H) :
    Node H d r → List (Action H) → List Cause → Node H d r → Prop where
  | nil (s : Node H d r) : Takes queue s [] [] s
  | interrupt {s m t : Node H d r} {interrupt : Interrupt} {rest : List (Action H)}
      {causes : List Cause} (acted : s.act (.perform (.interrupt interrupt)) = .ok m)
      (left : queue.pending m.link.line.hardware =
        leftBy (queue.pending s.link.line.hardware) interrupt)
      (later : Takes queue m rest causes t) :
      Takes queue s (.perform (.interrupt interrupt) :: rest)
        (heardBy (queue.pending s.link.line.hardware) interrupt ++ causes) t
  | disturb {s t : Node H d r} {change : H → H} {rest : List (Action H)} {causes : List Cause}
      (later : Takes queue (s.disturb change) rest causes t) :
      Takes queue s (.disturb change :: rest) causes t

/-- A run ends, its receiver lives through a story, and on hardware with a receive
queue the story tells what was taken from the queue and when timeouts were served. -/
structure Hears (s : Node H d r) (actions : List (Action H)) (story : List Occasion)
    (t : Node H d r) : Prop where
  ran : s.run actions = .ok t
  scene : s.link.scene.Hears story t.link.scene
  taken : ∀ queue : ReceiveQueue H, Takes queue s actions (story.map Occasion.cause) t

/-- What listens ends, and leaves the station alone. -/
theorem Sound.listens_act (h : s.Sound) {action : Action H} (listens : action.Listens) :
    ∃ t, s.act action = .ok t ∧ Moves (· = .interrupt) s.link t.link ∧ t.station = s.station := by
  cases action with
  | disturb change => exact ⟨s.disturb change, rfl, .of_scene_eq rfl rfl, rfl⟩
  | perform operation =>
      cases operation with
      | interrupt interrupt =>
          have serves : WP (fun _ => False) (perform (.interrupt interrupt))
              (fun _ t => Moves (· = .interrupt) s.link t.link ∧ t.station = s.station) s := by
            rw [perform, WP.bind_iff, wp_onLink]
            have serves : Does (fun _ => False) Link.free (· = .interrupt)
                (serve interrupt : Act (Link H d r) Unit) :=
              .serve (by rfl) interrupt
            exact (serves s.link h.free h.sound).mono fun _ _ moves => ⟨moves, rfl⟩
          obtain ⟨answer, t, ended, kept⟩ := serves.exists_ok
          refine ⟨t, ?_, kept⟩
          rw [Node.act, ended]
          rfl
      | _ => exact listens.elim

/-- A run that listens ends, whatever the hardware does. -/
theorem Sound.listens_run (h : s.Sound) (listens : ∀ action ∈ actions, action.Listens) :
    ∃ t, s.run actions = .ok t ∧ Moves (· = .interrupt) s.link t.link ∧
      t.station = s.station := by
  induction actions generalizing s with
  | nil => exact ⟨s, rfl, .refl _, rfl⟩
  | cons action rest ih =>
      obtain ⟨first, others⟩ := List.forall_mem_cons.mp listens
      obtain ⟨m, acted, moves, kept⟩ := h.listens_act first
      obtain ⟨t, ran, moves', kept'⟩ := ih ((h.act acted).sound h) others
      refine ⟨t, ?_, moves.trans moves', kept'.trans kept⟩
      rw [Node.run, acted]
      exact ran

/-- What a receiving node has heard in an interrupt is what it took from the queue. -/
theorem awaits_interrupt {queue : ReceiveQueue H} {causes : List Cause} {pending : List Signal}
    {interrupt : Interrupt} (awaits : s.link.Awaits queue causes pending)
    (acted : s.act (.perform (.interrupt interrupt)) = .ok t) :
    t.link.Awaits queue (causes ++ heardBy pending interrupt) (leftBy pending interrupt) := by
  have serves : WP (fun _ => True) (perform (.interrupt interrupt)) (fun _ t =>
      t.link.Awaits queue (causes ++ heardBy pending interrupt) (leftBy pending interrupt)) s := by
    rw [perform, WP.bind_iff, wp_onLink]
    exact awaits.serve interrupt
  obtain ⟨_, ended⟩ := perform_of_act acted
  exact serves.elim ended

theorem takes_run {queue : ReceiveQueue H} {causes : List Cause}
    (awaits : s.link.Awaits queue causes (queue.pending s.link.line.hardware))
    (listens : ∀ action ∈ actions, action.Listens) (ran : s.run actions = .ok t) :
    ∃ more, Takes queue s actions more t ∧ t.link.line.journal.causes = causes ++ more := by
  induction actions generalizing s causes with
  | nil =>
      cases ran
      exact ⟨[], .nil _, awaits.line.1.trans (List.append_nil _).symm⟩
  | cons action rest ih =>
      obtain ⟨first, others⟩ := List.forall_mem_cons.mp listens
      obtain ⟨m, acted, ran'⟩ := run_cons ran
      cases action with
      | disturb change =>
          cases acted
          have changed : (s.disturb change).link.Awaits queue causes
              (queue.pending (s.disturb change).link.line.hardware) :=
            ⟨⟨awaits.line.1, rfl⟩, awaits.receiving⟩
          obtain ⟨more, takes, told⟩ := ih changed others ran'
          exact ⟨more, .disturb takes, told⟩
      | perform operation =>
          cases operation with
          | interrupt interrupt =>
              have served := awaits_interrupt awaits acted
              have left := served.line.2
              rw [← left] at served
              obtain ⟨more, takes, told⟩ := ih served others ran'
              exact ⟨_, .interrupt acted left takes, by rw [told, List.append_assoc]⟩
          | _ => exact first.elim

/-- Every run of a receiving node that listens tells a story. -/
theorem Sound.hears (h : s.Sound) (receiving : s.link.engine.receiving = true)
    (listens : ∀ action ∈ actions, action.Listens) : ∃ t story, s.Hears actions story t := by
  obtain ⟨t, ran, moves, _⟩ := h.listens_run listens
  obtain ⟨story, hears⟩ := moves.steps.hears
  refine ⟨t, story, ran, hears, fun queue => ?_⟩
  have awaits : s.link.Awaits queue s.link.line.journal.causes
      (queue.pending s.link.line.hardware) := ⟨⟨rfl, rfl⟩, receiving⟩
  obtain ⟨causes, takes, told⟩ := takes_run awaits listens ran
  have heard : t.link.line.journal.causes =
      s.link.line.journal.causes ++ story.map Occasion.cause := by
    rw [Journal.causes, Journal.causes, ← List.map_append]
    exact congrArg (List.map _) hears.occasions
  rw [List.append_cancel_left (heard.symm.trans told)]
  exact takes

/-- A run that listens leaves the station alone. -/
theorem Hears.station {story : List Occasion} (h : s.Hears actions story t) (sound : s.Sound)
    (listens : ∀ action ∈ actions, action.Listens) : t.station = s.station := by
  obtain ⟨_, ran, _, kept⟩ := sound.listens_run listens
  exact Except.ok.inj (h.ran.symm.trans ran) ▸ kept

/-- A run tells one story only. -/
theorem Hears.unique {t' : Node H d r} {story story' : List Occasion} (h : s.Hears actions story t)
    (ran : s.run actions = .ok t') (told : t'.link.line.journal.occasions =
      s.link.line.journal.occasions ++ story') : t = t' ∧ story = story' := by
  have same : t = t' := Except.ok.inj (h.ran.symm.trans ran)
  refine ⟨same, List.append_cancel_left (h.scene.occasions.symm.trans ?_)⟩
  rw [same]
  exact told

end Dmx512.Node
