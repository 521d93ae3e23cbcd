import Dmx512.Proofs.Act
import Dmx512.Proofs.Link.Sound

/-!
# Specifications of what a link does

`Link.Does allowed use kinds act` is the contract of an act on a link: where the
engine is in use as `uses` says and the invariant holds, the act makes only steps
of the `kinds`, leaves the uses as they are, and stops with no fault that is not
allowed. Contracts compose, and a critical section turns the contract of its
body, which runs in exclusive use, into one that needs the engine free.
-/

namespace Dmx512.Link

open Act

variable {H : Type} {d r : Nat} {allowed : Fault → Prop} {kinds : Step.Kind → Prop}
variable {use : Nat × Bool} {s t u : Link H d r}

/-- How the engine of a link is in use: by how many that look at it, and whether
by one that may change it. -/
def uses (link : Link H d r) : Nat × Bool := (link.cell.readers, link.cell.exclusive)

/-- The engine is not in use. -/
abbrev free : Nat × Bool := (0, false)

/-- A link has gone from `s` to `t` by steps of some kinds, and its engine is in
use as before. -/
structure Moves (kinds : Step.Kind → Prop) (s t : Link H d r) : Prop where
  steps : Steps kinds s.scene t.scene
  uses : t.uses = s.uses

namespace Moves

theorem refl (s : Link H d r) : Moves kinds s s := ⟨.refl, rfl⟩

theorem trans (first : Moves kinds s t) (second : Moves kinds t u) : Moves kinds s u :=
  ⟨first.steps.trans second.steps, second.uses.trans first.uses⟩

theorem step {kind : Step.Kind} (step : Step kind s.scene t.scene) (within : kinds kind)
    (uses : t.uses = s.uses) : Moves kinds s t :=
  ⟨.single step within, uses⟩

theorem step_to {kind : Step.Kind} {scene : Scene d r} (step : Step kind s.scene scene)
    (within : kinds kind) (reached : t.scene = scene) (uses : t.uses = s.uses) : Moves kinds s t :=
  .step (reached ▸ step) within uses

theorem of_scene_eq (scene : t.scene = s.scene) (uses : t.uses = s.uses) : Moves kinds s t :=
  ⟨scene ▸ .refl, uses⟩

theorem mono {kinds' : Step.Kind → Prop} (h : Moves kinds s t)
    (wider : ∀ kind, kinds kind → kinds' kind) : Moves kinds' s t :=
  ⟨h.steps.mono wider, h.uses⟩

theorem sound (h : Moves kinds s t) (sound : s.scene.Sound) : t.scene.Sound :=
  h.steps.sound sound

end Moves

/-- The contract of an act: where the engine is in use as `use` says, it makes
only steps of some kinds. -/
def Does {α : Type} (allowed : Fault → Prop) (use : Nat × Bool) (kinds : Step.Kind → Prop)
    (act : Act (Link H d r) α) : Prop :=
  ∀ s : Link H d r, s.uses = use → s.scene.Sound → WP allowed act (fun _ => Moves kinds s) s

/-- What an act makes of the scene of a link, where the engine is in use as `use`
says. -/
def Ensures {α : Type} (allowed : Fault → Prop) (use : Nat × Bool) (pre : Scene d r → Prop)
    (act : Act (Link H d r) α) (post : α → Scene d r → Scene d r → Prop) : Prop :=
  ∀ s : Link H d r, s.uses = use → pre s.scene →
    WP allowed act (fun a t => post a s.scene t.scene ∧ t.uses = s.uses) s

theorem does_iff {α : Type} {act : Act (Link H d r) α} :
    Does allowed use kinds act ↔ Ensures allowed use Scene.Sound act (fun _ => Steps kinds) :=
  ⟨fun h s used sound => (h s used sound).mono fun _ _ moves => ⟨moves.steps, moves.uses⟩,
    fun h s used sound => (h s used sound).mono fun _ _ moves => ⟨moves.1, moves.2⟩⟩

namespace Does

variable {α β : Type}

theorem pure (a : α) : Does allowed use kinds (Pure.pure a : Act (Link H d r) α) :=
  fun s _ _ => Moves.refl s

theorem bind {act : Act (Link H d r) α} {next : α → Act (Link H d r) β}
    (first : Does allowed use kinds act) (second : ∀ a, Does allowed use kinds (next a)) :
    Does allowed use kinds (act >>= next) := by
  intro s used sound
  apply WP.bind (first s used sound)
  intro a t moves
  exact (second a t (moves.uses.trans used) (moves.sound sound)).mono fun _ _ => moves.trans

theorem ite {c : Prop} [Decidable c] {yes no : Act (Link H d r) α}
    (first : Does allowed use kinds yes) (second : Does allowed use kinds no) :
    Does allowed use kinds (if c then yes else no) := by
  split
  · exact first
  · exact second

end Does

section Primitives

variable {α : Type}

@[simp] theorem wp_getEngine {post : Engine → Link H d r → Prop} :
    WP allowed getEngine post s ↔ post s.cell.value s := Iff.rfl

@[simp] theorem wp_getTransmitter {post : Transmitter → Link H d r → Prop} :
    WP allowed getTransmitter post s ↔ post s.cell.value.transmitter s := Iff.rfl

@[simp] theorem wp_modifyEngine {f : Engine → Engine} {post : Unit → Link H d r → Prop} :
    WP allowed (modifyEngine f) post s ↔
      post () { s with cell := { s.cell with value := f s.cell.value } } := Iff.rfl

@[simp] theorem wp_setReceiver {receiver : Receiver} {post : Unit → Link H d r → Prop} :
    WP allowed (setReceiver receiver) post s ↔
      post () { s with cell := { s.cell with value := { s.cell.value with receiver } } } :=
  Iff.rfl

@[simp] theorem wp_setTransmitter {transmitter : Transmitter} {post : Unit → Link H d r → Prop} :
    WP allowed (setTransmitter transmitter) post s ↔
      post () { s with cell := { s.cell with value := { s.cell.value with transmitter } } } :=
  Iff.rfl

@[simp] theorem wp_modifyTransmitter {f : Transmitter → Transmitter}
    {post : Unit → Link H d r → Prop} :
    WP allowed (modifyTransmitter f) post s ↔
      post () { s with cell := { s.cell with
        value := { s.cell.value with transmitter := f s.cell.value.transmitter } } } :=
  Iff.rfl

@[simp] theorem wp_note {time : Micros} {event : Event} {post : Unit → Link H d r → Prop} :
    WP allowed (note time event) post s ↔
      post () { s with line := { s.line with journal := ⟨time, event⟩ :: s.line.journal } } :=
  Iff.rfl

@[simp] theorem wp_onLine {act : Act (Line H) α} {post : α → Link H d r → Prop} :
    WP allowed (onLine act) post s ↔
      WP allowed act (fun a line => post a { s with line }) s.line := by
  unfold WP onLine
  cases act s.line <;> rfl

theorem isFree_of_uses (used : s.uses = free) : s.cell.isFree = true := by
  obtain ⟨readers, exclusive⟩ := Prod.mk.inj used
  simp [Cell.isFree, readers, exclusive]

/-- What holds under exclusive use holds of a critical section that finds the
engine free. -/
theorem wp_critical {act : Act (Link H d r) α} {post : α → Link H d r → Prop}
    (used : s.uses = free) :
    WP allowed (critical act) post s ↔
      WP allowed act (fun a t => post a { t with cell := t.cell.leave })
        { s with cell := { s.cell with exclusive := true } } := by
  simp only [critical, WP.bind_iff, WP.get_iff, Cell.enter, isFree_of_uses used, if_true,
    WP.lift_ok_iff, WP.modify_iff, WP.pure_iff]

theorem wp_observe {act : Act (Link H d r) α} {post : α → Link H d r → Prop}
    (used : s.uses = free) :
    WP allowed (observe act) post s ↔
      WP allowed act (fun a t => post a { t with cell := t.cell.unshare })
        { s with cell := { s.cell with readers := s.cell.readers + 1 } } := by
  have shared : s.cell.exclusive = false := (Prod.mk.inj used).2
  simp only [observe, WP.bind_iff, WP.get_iff, Cell.share, shared, Bool.false_eq_true, if_false,
    WP.lift_ok_iff, WP.modify_iff, WP.pure_iff]

/-- What an act makes of a scene under exclusive use, a critical section makes of
the scene of a link whose engine is free. -/
theorem Ensures.critical {act : Act (Link H d r) α} {pre : Scene d r → Prop}
    {post : α → Scene d r → Scene d r → Prop} (h : Ensures allowed (0, true) pre act post) :
    Ensures allowed free pre (Link.critical act) post := by
  intro s used holds
  rw [wp_critical used]
  obtain ⟨readers, exclusive⟩ := Prod.mk.inj used
  let entered : Link H d r := { s with cell := { s.cell with exclusive := true } }
  have use : entered.uses = (0, true) := Prod.ext readers rfl
  apply (h entered use holds).mono
  rintro _ t ⟨reached, used'⟩
  exact ⟨reached, Prod.ext (Prod.mk.inj used').1 exclusive.symm⟩

theorem Ensures.observe {act : Act (Link H d r) α} {pre : Scene d r → Prop}
    {post : α → Scene d r → Scene d r → Prop} (h : Ensures allowed (1, false) pre act post) :
    Ensures allowed free pre (Link.observe act) post := by
  intro s used holds
  rw [wp_observe used]
  obtain ⟨readers, exclusive⟩ := Prod.mk.inj used
  let entered : Link H d r := { s with cell := { s.cell with readers := s.cell.readers + 1 } }
  have use : entered.uses = (1, false) := Prod.ext (congrArg (· + 1) readers) exclusive
  apply (h entered use holds).mono
  rintro _ t ⟨reached, used'⟩
  obtain ⟨readers', exclusive'⟩ := Prod.mk.inj (used'.trans use)
  exact ⟨reached, Prod.ext ((congrArg (· - 1) readers').trans readers.symm)
    (exclusive'.trans exclusive.symm)⟩

theorem Does.critical {act : Act (Link H d r) α} (h : Does allowed (0, true) kinds act) :
    Does allowed free kinds (Link.critical act) :=
  does_iff.mpr (does_iff.mp h).critical

theorem Does.observe {act : Act (Link H d r) α} (h : Does allowed (1, false) kinds act) :
    Does allowed free kinds (Link.observe act) :=
  does_iff.mpr (does_iff.mp h).observe

end Primitives

section Line

variable [Hardware H]

theorem wp_order {order : Order} {post : Unit → Link H d r → Prop} :
    WP allowed (Link.order order) post s ↔
      post () { s with line := {
        hardware := Hardware.obey order s.line.hardware
        journal := ⟨s.line.now, .order order⟩ :: s.line.journal } } := Iff.rfl

theorem wp_readClock {post : Micros → Link H d r → Prop} :
    WP allowed readClock post s ↔
      post s.line.now { s with line := {
        hardware := Hardware.tick s.line.hardware
        journal := ⟨s.line.now, .clockRead⟩ :: s.line.journal } } := Iff.rfl

theorem Does.readClock (within : kinds .interrupt) :
    Does allowed use kinds (Link.readClock : Act (Link H d r) Micros) :=
  fun _ _ _ => .step (.readClock _) within rfl

theorem Does.sample (within : kinds .interrupt) :
    Does allowed use kinds (onLine Line.sample : Act (Link H d r) Line.Status) :=
  fun _ _ _ => .step (.sample _ _) within rfl

/-- The queues of the hardware are its own. -/
theorem Does.take : Does allowed use kinds (onLine Line.take : Act (Link H d r) UInt8) :=
  fun _ _ _ => .of_scene_eq rfl rfl

theorem Does.raised (interrupt : Interrupt) :
    Does allowed use kinds (onLine (Line.raised interrupt) : Act (Link H d r) Bool) :=
  fun _ _ _ => .of_scene_eq rfl rfl

end Line

end Dmx512.Link
