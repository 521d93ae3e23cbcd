import Dmx512.Clock.Wait

/-!
# Weakest preconditions of acts

`Act.WP allowed act post s` says that `act`, carried out from `s`, ends with an
answer and a state that satisfy `post`, or stops with one of the `allowed`
faults. With no fault allowed this is total correctness; with `Fault.IsStall`
it excludes every fault but a busy-wait without end.

The equations below push a precondition through the constructs of an act, so
that a specification of an act is derived from the specifications of its parts
and no proof unfolds a part again.
-/

namespace Dmx512

/-- The one fault that a busy-wait on an unhelpful clock may end with. -/
def Fault.IsStall (fault : Fault) : Prop := fault = .stalled

theorem Fault.isStall_stalled : Fault.stalled.IsStall := rfl

/-- Where a wait may stall, it may stop with what a wait stops with. -/
theorem Fault.IsStall.allows {allowed : Fault → Prop} (stalls : allowed .stalled) (fault : Fault)
    (stall : fault.IsStall) : allowed fault := by
  rw [stall]
  exact stalls

namespace Act

variable {σ α β : Type} {allowed : Fault → Prop} {s : σ}

/-- The act ends well: `post` holds of its answer and its final state, unless it
stops with an allowed fault. -/
def WP (allowed : Fault → Prop) (act : Act σ α) (post : α → σ → Prop) (s : σ) : Prop :=
  match act s with
  | .ok (a, t) => post a t
  | .error fault => allowed fault

namespace WP

/-- What an act ended with satisfies its postcondition. -/
theorem elim {act : Act σ α} {post : α → σ → Prop} {a : α} {t : σ} (h : WP allowed act post s)
    (ended : act s = .ok (a, t)) : post a t := by
  rw [WP, ended] at h
  exact h

/-- An act stops with an allowed fault only. -/
theorem allows {act : Act σ α} {post : α → σ → Prop} {fault : Fault} (h : WP allowed act post s)
    (stopped : act s = .error fault) : allowed fault := by
  rw [WP, stopped] at h
  exact h

/-- What an act ends with is what it ran to. -/
theorem ran {act : Act σ α} {post : α → σ → Prop} (h : WP allowed act post s) :
    WP allowed act (fun a t => act s = .ok (a, t) ∧ post a t) s := by
  rw [WP] at h ⊢
  split
  · rename_i ended
    rw [ended] at h
    exact ⟨ended, h⟩
  · rename_i ended
    rw [ended] at h
    exact h

/-- With no fault allowed, an act does end. -/
theorem exists_ok {act : Act σ α} {post : α → σ → Prop} (h : WP (fun _ => False) act post s) :
    ∃ a t, act s = .ok (a, t) ∧ post a t := by
  rw [WP] at h
  split at h
  · exact ⟨_, _, by assumption, h⟩
  · exact h.elim

/-- An act that ends does so with whatever it satisfies if it ends. -/
theorem of_ends {allowed' : Fault → Prop} {act : Act σ α} {post : α → σ → Prop} {a : α} {t : σ}
    (ended : act s = .ok (a, t)) (h : WP allowed act post s) : WP allowed' act post s := by
  rw [WP, ended] at h ⊢
  exact h

/-- An act that cannot end, and stops with no other fault, waits for ever. -/
theorem stalls {act : Act σ α} (h : WP Fault.IsStall act (fun _ _ => False) s) :
    act s = .error .stalled := by
  cases ended : act s with
  | ok outcome => exact (h.elim ended).elim
  | error fault => rw [h.allows ended]

theorem mono {act : Act σ α} {post post' : α → σ → Prop} (h : WP allowed act post s)
    (imp : ∀ a t, post a t → post' a t) : WP allowed act post' s := by
  rw [WP] at h ⊢
  split
  · rename_i hs
    rw [hs] at h
    exact imp _ _ h
  · rename_i hs
    rw [hs] at h
    exact h

/-- Of any act nothing can be asked. -/
theorem unasked (act : Act σ α) (s : σ) : WP (fun _ => True) act (fun _ _ => True) s := by
  rw [WP]
  split <;> trivial

/-- What stops with fewer faults stops with no other. -/
theorem allow {allowed' : Fault → Prop} {act : Act σ α} {post : α → σ → Prop}
    (h : WP allowed act post s) (imp : ∀ fault, allowed fault → allowed' fault) :
    WP allowed' act post s := by
  rw [WP] at h ⊢
  split
  · rename_i ended
    rw [ended] at h
    exact h
  · rename_i ended
    rw [ended] at h
    exact imp _ h

@[simp] theorem pure_iff {a : α} {post : α → σ → Prop} :
    WP allowed (pure a) post s ↔ post a s := Iff.rfl

@[simp] theorem bind_iff {act : Act σ α} {next : α → Act σ β} {post : β → σ → Prop} :
    WP allowed (act >>= next) post s ↔
      WP allowed act (fun a t => WP allowed (next a) post t) s := by
  unfold WP
  change (match (act s >>= fun p => next p.1 p.2) with
    | .ok (a, t) => post a t
    | .error fault => allowed fault) ↔ _
  cases act s <;> rfl

/-- The rule of composition: what the first part establishes carries the second. -/
theorem bind {act : Act σ α} {next : α → Act σ β} {middle : α → σ → Prop}
    {post : β → σ → Prop} (first : WP allowed act middle s)
    (second : ∀ a t, middle a t → WP allowed (next a) post t) :
    WP allowed (act >>= next) post s :=
  bind_iff.mpr (first.mono second)

@[simp] theorem get_iff {post : σ → σ → Prop} :
    WP allowed (get : Act σ σ) post s ↔ post s s := Iff.rfl

@[simp] theorem modify_iff {f : σ → σ} {post : Unit → σ → Prop} :
    WP allowed (modify f : Act σ Unit) post s ↔ post () (f s) := Iff.rfl

/-- A checked value is the answer of an act that leaves the state alone. -/
@[simp] theorem lift_ok_iff {a : α} {post : α → σ → Prop} :
    WP allowed (liftM (Except.ok a : Checked α) : Act σ α) post s ↔ post a s := Iff.rfl

@[simp] theorem ite_iff {c : Prop} [Decidable c] {yes no : Act σ α} {post : α → σ → Prop} :
    WP allowed (if c then yes else no) post s ↔
      (c → WP allowed yes post s) ∧ (¬ c → WP allowed no post s) := by
  by_cases h : c <;> simp [h]

@[simp] theorem onlyIf_iff {c : Bool} {act : Act σ Unit} {post : Unit → σ → Prop} :
    WP allowed (onlyIf c act) post s ↔
      (c = true → WP allowed act post s) ∧ (c = false → post () s) := by
  cases c <;> simp [onlyIf]

end WP

section Waits

variable {read : Act σ Micros} {invariant : Nat → σ → Prop}

/-- A wait for a deadline keeps what its readings keep, counted, and ends with a reading
that meets the deadline. It may run out of patience only where that is allowed. -/
theorem WP.untilDue {deadline : Micros} {due : σ → Prop}
    (reads : ∀ n s, invariant n s → WP allowed read (fun now t =>
      (isDue now deadline = true → due t) ∧ (isDue now deadline = false → invariant (n + 1) t)) s)
    {n patience : Nat} (exhausted : ∀ s, invariant (n + patience) s → allowed .stalled)
    (hs : invariant n s) :
    WP allowed (Wait.untilDue read deadline patience) (fun _ => due) s := by
  induction patience generalizing n s with
  | zero => exact exhausted s hs
  | succ patience ih =>
    rw [Wait.untilDue]
    apply WP.bind (reads n s hs)
    rintro now t ⟨met, unmet⟩
    rw [ite_iff]
    refine ⟨met, fun early => ih (fun u hu => exhausted u ?_) (unmet (Bool.eq_false_iff.mpr early))⟩
    rwa [Nat.add_right_comm, Nat.add_assoc] at hu

/-- A wait on a condition ends with a poll that finds it gone, or with a reading that finds
the timeout over. -/
theorem WP.whileBusyFrom {busy : Act σ Bool} {polled : Nat → σ → Prop} {gone late : σ → Prop}
    {start timeout : Micros}
    (polls : ∀ n s, invariant n s → WP allowed busy (fun isBusy t =>
      (isBusy = true → polled n t) ∧ (isBusy = false → gone t)) s)
    (reads : ∀ n s, polled n s → WP allowed read (fun now t =>
      (elapsed now start ≥ timeout → late t) ∧
      (¬ elapsed now start ≥ timeout → invariant (n + 1) t)) s)
    {n patience : Nat} (exhausted : ∀ s, invariant (n + patience) s → allowed .stalled)
    (hs : invariant n s) :
    WP allowed (Wait.whileBusyFrom read busy start timeout patience)
      (fun ended t => (ended = true → gone t) ∧ (ended = false → late t)) s := by
  induction patience generalizing n s with
  | zero => exact exhausted s hs
  | succ patience ih =>
    rw [Wait.whileBusyFrom]
    apply WP.bind (polls n s hs)
    rintro isBusy t ⟨stays, ends⟩
    rw [ite_iff]
    refine ⟨fun isBusy => ?_, fun idle => ⟨fun _ => ends (Bool.eq_false_iff.mpr idle), nofun⟩⟩
    apply WP.bind (reads n t (stays isBusy))
    rintro now u ⟨late, early⟩
    rw [ite_iff]
    refine ⟨fun passed => ⟨nofun, fun _ => late passed⟩, fun rest => ih (fun v hv => exhausted v ?_)
      (early rest)⟩
    rwa [Nat.add_right_comm, Nat.add_assoc] at hv

end Waits

end Act

end Dmx512
