import Dmx512.Proofs.Clock.Stride
import Dmx512.Proofs.Link.Waiting

/-!
# Busy-waits on a clock of constant step

Where the clock moves by the same step at every reading, and by nothing else while the
foreground waits, a wait ends by its timeout if the clock ever tells that so much has passed.
Where it never does, a condition that lasts is waited for without end, however often the clock
is read.
-/

namespace Dmx512.Link

open Act

variable {H : Type} [Hardware H] {d r : Nat} {allowed : Fault → Prop} {step : Micros}
variable {among : H → Prop} {s t : Link H d r} {start timeout : Micros} {n : Nat}

/-- Among some states of its hardware, the clock moves by the same step at every reading and
stands still at a look at the line status, and no interrupts are served; and the foreground
waits for as long as the range of the clock. -/
structure Striding (H : Type) [Hardware H] (step : Micros) (among : H → Prop) : Prop where
  patient : 4294967296 ≤ Hardware.patience H
  quiet : ∀ h : H, among h → Hardware.polled h = []
  ticks : ∀ h : H, among h → among (Hardware.tick h) ∧
    Hardware.clock (Hardware.tick h) = Hardware.clock h + step
  looks : ∀ h : H, among h → among (Hardware.sample h).2 ∧
    Hardware.clock (Hardware.sample h).2 = Hardware.clock h

/-- A condition is polled that leaves the engine and the clock alone, and holds if it
`lasts`. -/
def Polls (among : H → Prop) (cell : Cell Engine) (lasts : Prop) (busy : Act (Link H d r) Bool) :
    Prop :=
  ∀ s : Link H d r, s.cell = cell → among s.line.hardware →
    WP (fun _ => False) busy (fun isBusy t => t.cell = cell ∧ among t.line.hardware ∧
      t.line.now = s.line.now ∧ (lasts → isBusy = true)) s

/-- Since a reading of `start` the clock was read `n` times, each time before the timeout. -/
structure Paced (among : H → Prop) (cell : Cell Engine) (step start timeout : Micros) (n : Nat)
    (t : Link H d r) : Prop where
  cell : t.cell = cell
  among : among t.line.hardware
  now : t.line.now = start + strides step (n + 1)
  early : ∀ count, 0 < count → count ≤ n → (strides step count).toNat < timeout.toNat

namespace Striding

variable (striding : Striding H step among)
include striding

theorem wp_foregroundClock (at_ : among s.line.hardware) :
    WP allowed foregroundClock (fun now t => now = s.line.now ∧ t.cell = s.cell ∧
      among t.line.hardware ∧ t.line.now = s.line.now + step) s := by
  rw [WP, foregroundClock_quiet (striding.quiet _ at_)]
  obtain ⟨among', moved⟩ := striding.ticks _ at_
  exact ⟨rfl, rfl, among', moved⟩

variable {busy : Act (Link H d r) Bool} {lasts : Prop} {cell : Cell Engine}

omit striding in
theorem wp_poll (polls : Polls among cell lasts busy)
    (h : Paced among cell step start timeout n s) :
    WP (fun _ => False) busy (fun isBusy t => Paced among cell step start timeout n t ∧
      (lasts → isBusy = true)) s := by
  apply (polls s h.cell h.among).mono
  rintro isBusy t ⟨same, among', stands, busy'⟩
  exact ⟨⟨same, among', stands.trans h.now, h.early⟩, busy'⟩

/-- Each reading tells one stride more, and is late or early. -/
theorem wp_read (h : Paced among cell step start timeout n s) :
    WP allowed foregroundClock (fun now t =>
      (elapsed now start ≥ timeout → timeout.toNat ≤ (strides step (n + 1)).toNat) ∧
      (¬ elapsed now start ≥ timeout → Paced among cell step start timeout (n + 1) t)) s := by
  apply (striding.wp_foregroundClock h.among).mono
  rintro now t ⟨rfl, same, among', moved⟩
  have told : elapsed s.line.now start = strides step (n + 1) := by
    rw [elapsed, h.now]
    grind
  rw [told]
  refine ⟨fun late => UInt32.le_iff_toNat_le.mp late, fun early => ?_⟩
  refine ⟨same.trans h.cell, among', ?_, fun count positive within => ?_⟩
  · rw [moved, h.now, strides_succ step (n + 1)]
    grind
  · rcases Nat.lt_or_ge n count with last | before
    · have here : count = n + 1 := by omega
      rw [here]
      exact Nat.lt_of_not_le (mt UInt32.le_iff_toNat_le.mpr early)
    · exact h.early count positive before

theorem wp_begin (at_ : among s.line.hardware) :
    WP allowed foregroundClock
      (fun start t => Paced among s.cell step start timeout 0 t) s := by
  apply (striding.wp_foregroundClock at_).mono
  rintro now t ⟨rfl, same, among', moved⟩
  refine ⟨same, among', ?_, fun count positive within => absurd positive (by omega)⟩
  rw [moved, strides_succ, strides_zero]
  grind

/-- A wait ends by its timeout, if not before, where the clock ever tells that so much has
passed. -/
theorem waitWhile_ends (moves : 0 < step.toNat) (polls : Polls among s.cell lasts busy)
    (at_ : among s.line.hardware) (told : timeout.toNat ≤ farthest step) :
    ∃ ended t, waitWhile busy timeout s = .ok (ended, t) := by
  have ends : WP (fun _ => False) (waitWhile busy timeout) (fun _ _ => True) s := by
    rw [waitWhile, Wait.whileBusy]
    apply WP.bind (striding.wp_begin at_)
    intro start t begun
    have polls' (n : Nat) (u : Link H d r) (h : Paced among s.cell step start timeout n u) :
        WP (fun _ => False) busy (fun isBusy v =>
          (isBusy = true → Paced among s.cell step start timeout n v) ∧
          (isBusy = false → True)) u := by
      apply (wp_poll polls h).mono
      rintro _ v ⟨paced, _⟩
      exact ⟨fun _ => paced, fun _ => trivial⟩
    have reads (n : Nat) (u : Link H d r) (h : Paced among s.cell step start timeout n u) :
        WP (fun _ => False) foregroundClock (fun now v =>
          (elapsed now start ≥ timeout → True) ∧
          (¬ elapsed now start ≥ timeout → Paced among s.cell step start timeout (n + 1) v)) u := by
      apply (striding.wp_read h).mono
      rintro _ v ⟨_, paced⟩
      exact ⟨fun _ => trivial, paced⟩
    refine (WP.whileBusyFrom polls' reads (fun u exhausted => ?_) begun).mono fun _ _ _ => trivial
    obtain ⟨count, positive, within, tells⟩ := exists_strides_eq_farthest moves
    have patient := striding.patient
    have early := exhausted.early count positive (by omega)
    omega
  obtain ⟨ended, t, ran, _⟩ := ends.exists_ok
  exact ⟨ended, t, ran⟩

/-- A condition that lasts is waited for without end where the clock never tells that so much
has passed. -/
theorem whileBusy_stalls (polls : Polls among s.cell lasts busy) (at_ : among s.line.hardware)
    (untold : farthest step < timeout.toNat) (lasting : lasts) (patience : Nat) :
    Wait.whileBusy foregroundClock busy timeout patience s = .error .stalled := by
  apply WP.stalls
  rw [Wait.whileBusy]
  apply WP.bind (striding.wp_begin at_)
  intro start t begun
  have polls' (n : Nat) (u : Link H d r) (h : Paced among s.cell step start timeout n u) :
      WP Fault.IsStall busy (fun isBusy v =>
        (isBusy = true → Paced among s.cell step start timeout n v) ∧
        (isBusy = false → False)) u := by
    apply ((wp_poll polls h).allow fun _ => False.elim).mono
    rintro _ v ⟨paced, holds⟩
    exact ⟨fun _ => paced, fun gone => by simp [holds lasting] at gone⟩
  have reads (n : Nat) (u : Link H d r) (h : Paced among s.cell step start timeout n u) :
      WP Fault.IsStall foregroundClock (fun now v =>
        (elapsed now start ≥ timeout → False) ∧
        (¬ elapsed now start ≥ timeout → Paced among s.cell step start timeout (n + 1) v)) u := by
    apply (striding.wp_read h).mono
    rintro now v ⟨late, paced⟩
    refine ⟨fun passed => ?_, paced⟩
    have told := late passed
    have bound := strides_le_farthest step (n + 1)
    omega
  refine (WP.whileBusyFrom polls' reads (fun _ _ => Fault.isStall_stalled) begun).mono ?_
  rintro ended u ⟨gone, late⟩
  cases ended with
  | true => exact gone rfl
  | false => exact late rfl

end Striding

end Dmx512.Link
