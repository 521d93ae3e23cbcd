import Dmx512.Proofs.Act
import Dmx512.Proofs.Clock

/-!
# Acts side by side

`Checked.Both R` relates two checked computations: both answer, and `R` relates the answers, or
both stop, with the same fault. `Act.Pairs` says that of two acts on related states, and
`Act.Abreast` of acts that leave their states related as they were. The rules below follow the
constructs of an act, so that a pair of acts is related by relating its parts.

A busy-wait runs side by side with one that reads a clock ahead by an offset, if the deadline is
ahead by the same: neither meets it before the other.
-/

namespace Dmx512

/-- Two computations answer alike: with related answers, or not at all and for the same reason. -/
def Checked.Both {α α' : Type} (R : α → α' → Prop) : Checked α → Checked α' → Prop
  | .ok a, .ok a' => R a a'
  | .error fault, .error fault' => fault' = fault
  | .ok _, .error _ => False
  | .error _, .ok _ => False

namespace Checked.Both

variable {α α' β β' : Type} {R : α → α' → Prop} {S : β → β' → Prop}
variable {c : Checked α} {c' : Checked α'}

theorem mono {R' : α → α' → Prop} (h : Both R c c') (imp : ∀ a a', R a a' → R' a a') :
    Both R' c c' := by
  cases c <;> cases c' <;> first | exact imp _ _ h | exact h

/-- The answers are those that the computations end with. -/
theorem ran (h : Both R c c') : Both (fun a a' => R a a' ∧ c = .ok a ∧ c' = .ok a') c c' := by
  cases c <;> cases c' <;> first | exact ⟨h, rfl, rfl⟩ | exact h

/-- Of one computation beside itself. -/
theorem same {R : α → α → Prop} (refl : ∀ a, R a a) (c : Checked α) : Both R c c := by
  cases c with
  | ok a => exact refl a
  | error => rfl

theorem bind {f : α → Checked β} {f' : α' → Checked β'} (first : Both R c c')
    (second : ∀ a a', R a a' → Both S (f a) (f' a')) : Both S (c >>= f) (c' >>= f') := by
  cases c with
  | ok a =>
      cases c' with
      | ok a' => exact second a a' first
      | error => exact first.elim
  | error fault =>
      cases c' with
      | ok => exact first.elim
      | error fault' => exact first

theorem map {f : α → β} {f' : α' → β'} (h : Both R c c') (imp : ∀ a a', R a a' → S (f a) (f' a')) :
    Both S (c.map f) (c'.map f') := by
  cases c <;> cases c' <;> first | exact imp _ _ h | exact h

theorem ite {p p' : Prop} [Decidable p] [Decidable p'] {yes no : Checked α}
    {yes' no' : Checked α'} (alike : p ↔ p') (first : p → Both R yes yes')
    (second : ¬ p → Both R no no') :
    Both R (if p then yes else no) (if p' then yes' else no') := by
  by_cases h : p
  · rw [if_pos h, if_pos (alike.mp h)]
    exact first h
  · rw [if_neg h, if_neg fun h' => h (alike.mpr h')]
    exact second h

/-- Where the first one answers, so does the second. -/
theorem exists_ok {a : α} (h : Both R c c') (ended : c = .ok a) : ∃ a', c' = .ok a' ∧ R a a' := by
  subst ended
  cases c' with
  | ok a' => exact ⟨a', rfl, h⟩
  | error => exact h.elim

/-- Where the first one stops, so does the second. -/
theorem exists_error {fault : Fault} (h : Both R c c') (stopped : c = .error fault) :
    c' = .error fault := by
  subst stopped
  cases c' with
  | ok => exact h.elim
  | error => exact congrArg Except.error h

end Checked.Both

namespace Act

variable {σ σ' α α' β β' : Type}

/-- From related states two acts answer alike, and leave what `post` relates. -/
def Pairs (pre : σ → σ' → Prop) (act : Act σ α) (act' : Act σ' α')
    (post : α → α' → σ → σ' → Prop) : Prop :=
  ∀ s s', pre s s' →
    Checked.Both (fun done done' => post done.1 done'.1 done.2 done'.2) (act s) (act' s')

/-- Two acts answer alike, and leave their states related as they were. -/
def Abreast (held : σ → σ' → Prop) (act : Act σ α) (act' : Act σ' α') (R : α → α' → Prop) : Prop :=
  Pairs held act act' fun a a' t t' => R a a' ∧ held t t'

namespace Pairs

variable {pre : σ → σ' → Prop} {act : Act σ α} {act' : Act σ' α'}
variable {post : α → α' → σ → σ' → Prop}

theorem mono {post' : α → α' → σ → σ' → Prop} (h : Pairs pre act act' post)
    (imp : ∀ a a' t t', post a a' t t' → post' a a' t t') : Pairs pre act act' post' :=
  fun s s' hs => (h s s' hs).mono fun _ _ => imp _ _ _ _

theorem of_imp {pre' : σ → σ' → Prop} (h : Pairs pre act act' post)
    (imp : ∀ s s', pre' s s' → pre s s') : Pairs pre' act act' post :=
  fun s s' hs => h s s' (imp s s' hs)

/-- What is known of either act on its own is known of the pair. -/
theorem learn {known : α → σ → Prop} {known' : α' → σ' → Prop} (h : Pairs pre act act' post)
    (knows : ∀ s s', pre s s' → WP (fun _ => True) act known s)
    (knows' : ∀ s s', pre s s' → WP (fun _ => True) act' known' s') :
    Pairs pre act act' fun a a' t t' => post a a' t t' ∧ known a t ∧ known' a' t' := by
  intro s s' hs
  have first := knows s s' hs
  have second := knows' s s' hs
  have both := h s s' hs
  rw [WP] at first second
  cases done : act s with
  | error =>
      rw [done] at both
      cases done' : act' s' with
      | error => rwa [done'] at both
      | ok => rwa [done'] at both
  | ok =>
      rw [done] at both first
      cases done' : act' s' with
      | error => rwa [done'] at both
      | ok =>
          rw [done'] at both second
          exact ⟨both, first, second⟩

theorem pure {a : α} {a' : α'} (h : ∀ s s', pre s s' → post a a' s s') :
    Pairs pre (Pure.pure a : Act σ α) (Pure.pure a' : Act σ' α') post := h

/-- The rule of composition: what the first parts leave carries the second. -/
theorem bind {next : α → Act σ β} {next' : α' → Act σ' β'} {last : β → β' → σ → σ' → Prop}
    (first : Pairs pre act act' post)
    (second : ∀ a a', Pairs (post a a') (next a) (next' a') last) :
    Pairs pre (act >>= next) (act' >>= next') last :=
  fun s s' hs => (first s s' hs).bind fun done done' => second done.1 done'.1 done.2 done'.2

/-- As `bind`, where the answers are related whatever the states are. -/
theorem bind_known {R : α → α' → Prop} {held : α → α' → σ → σ' → Prop}
    {next : α → Act σ β} {next' : α' → Act σ' β'} {last : β → β' → σ → σ' → Prop}
    (first : Pairs pre act act' fun a a' t t' => R a a' ∧ held a a' t t')
    (second : ∀ a a', R a a' → Pairs (held a a') (next a) (next' a') last) :
    Pairs pre (act >>= next) (act' >>= next') last :=
  bind first fun a a' s s' known => second a a' known.1 s s' known.2

theorem ite {p p' : Prop} [Decidable p] [Decidable p'] {yes no : Act σ α} {yes' no' : Act σ' α'}
    (alike : p ↔ p') (first : p → Pairs pre yes yes' post) (second : ¬ p → Pairs pre no no' post) :
    Pairs pre (if p then yes else no) (if p' then yes' else no') post := by
  by_cases h : p
  · rw [if_pos h, if_pos (alike.mp h)]
    exact first h
  · rw [if_neg h, if_neg fun h' => h (alike.mpr h')]
    exact second h

theorem onlyIf {p : Bool} {act : Act σ Unit} {act' : Act σ' Unit}
    {post : Unit → Unit → σ → σ' → Prop} (first : p = true → Pairs pre act act' post)
    (second : p = false → ∀ s s', pre s s' → post () () s s') :
    Pairs pre (Act.onlyIf p act) (Act.onlyIf p act') post := by
  cases p with
  | true => exact first rfl
  | false => exact second rfl

/-- Checked values are the answers of acts that leave the states alone. -/
theorem lift {R : α → α' → Prop} {c : Checked α} {c' : Checked α'} (h : Checked.Both R c c') :
    Abreast pre (liftM c : Act σ α) (liftM c' : Act σ' α') R := by
  intro s s' hs
  cases c <;> cases c' <;> first | exact ⟨h, hs⟩ | exact h

theorem get : Abreast pre (MonadState.get : Act σ σ) (MonadState.get : Act σ' σ') pre :=
  fun _ _ hs => ⟨hs, hs⟩

/-- What goes on behind a look at the states knows them. -/
theorem get_bind {next : σ → Act σ β} {next' : σ' → Act σ' β'} {last : β → β' → σ → σ' → Prop}
    (h : ∀ s s', pre s s' → Pairs (fun t t' => t = s ∧ t' = s') (next s) (next' s') last) :
    Pairs pre (MonadState.get >>= next) (MonadState.get >>= next') last :=
  fun s s' hs => h s s' hs s s' ⟨rfl, rfl⟩

end Pairs

namespace Abreast

variable {held : σ → σ' → Prop} {R : α → α' → Prop} {S : β → β' → Prop}
variable {act : Act σ α} {act' : Act σ' α'}

theorem pure {a : α} {a' : α'} (h : R a a') :
    Abreast held (Pure.pure a : Act σ α) (Pure.pure a' : Act σ' α') R :=
  fun _ _ hs => ⟨h, hs⟩

theorem bind {next : α → Act σ β} {next' : α' → Act σ' β'} (first : Abreast held act act' R)
    (second : ∀ a a', R a a' → Abreast held (next a) (next' a') S) :
    Abreast held (act >>= next) (act' >>= next') S :=
  Pairs.bind_known first second

/-- What either act keeps on its own is kept beside the other. -/
theorem along {inv : σ → Prop} {inv' : σ' → Prop} (h : Abreast held act act' R)
    (kept : ∀ s, inv s → WP (fun _ => True) act (fun _ => inv) s)
    (kept' : ∀ s, inv' s → WP (fun _ => True) act' (fun _ => inv') s) :
    Abreast (fun s s' => held s s' ∧ inv s ∧ inv' s') act act' R := by
  have beside : Pairs (fun s s' => held s s' ∧ inv s ∧ inv' s') act act' fun a a' t t' =>
      R a a' ∧ held t t' := Pairs.of_imp h fun _ _ => And.left
  have known := beside.learn (fun s _ hs => kept s hs.2.1) fun _ s' hs => kept' s' hs.2.2
  exact known.mono fun _ _ _ _ h => ⟨h.1.1, h.1.2, h.2⟩

/-- What goes on behind two acts that answer nothing. -/
theorem next {act : Act σ Unit} {act' : Act σ' Unit} {following : Act σ β} {following' : Act σ' β'}
    (first : Abreast held act act' fun _ _ => True) (second : Abreast held following following' S) :
    Abreast held (act >>= fun _ => following) (act' >>= fun _ => following') S :=
  bind first fun _ _ _ => second

variable {read : Act σ Micros} {read' : Act σ' Micros} {offset : Micros}

theorem untilDue (reads : Abreast held read read' fun now now' => now' = now + offset)
    (deadline : Micros) (patience : Nat) :
    Abreast held (Wait.untilDue read deadline patience)
      (Wait.untilDue read' (deadline + offset) patience) fun _ _ => True := by
  induction patience with
  | zero => exact fun _ _ _ => rfl
  | succ patience ih =>
      rw [Wait.untilDue, Wait.untilDue]
      apply bind reads
      rintro now _ rfl
      refine Pairs.ite ?_ (fun _ => pure trivial) fun _ => ih
      rw [isDue_add_right]

theorem forMicros (reads : Abreast held read read' fun now now' => now' = now + offset)
    (micros : Micros) (patience : Nat) :
    Abreast held (Wait.forMicros read micros patience) (Wait.forMicros read' micros patience)
      fun _ _ => True := by
  rw [Wait.forMicros, Wait.forMicros]
  apply bind reads
  rintro start _ rfl
  have ahead : start + offset + micros = start + micros + offset := by grind
  rw [ahead]
  exact untilDue reads (start + micros) patience

variable {busy : Act σ Bool} {busy' : Act σ' Bool}

theorem whileBusyFrom (reads : Abreast held read read' fun now now' => now' = now + offset)
    (polls : Abreast held busy busy' Eq) (start timeout : Micros) (patience : Nat) :
    Abreast held (Wait.whileBusyFrom read busy start timeout patience)
      (Wait.whileBusyFrom read' busy' (start + offset) timeout patience) Eq := by
  induction patience with
  | zero => exact fun _ _ _ => rfl
  | succ patience ih =>
      rw [Wait.whileBusyFrom, Wait.whileBusyFrom]
      apply bind polls
      rintro isBusy _ rfl
      refine Pairs.ite Iff.rfl (fun _ => ?_) fun _ => pure rfl
      apply bind reads
      rintro now _ rfl
      refine Pairs.ite ?_ (fun _ => pure rfl) fun _ => ih
      rw [elapsed_add_right]

theorem whileBusy (reads : Abreast held read read' fun now now' => now' = now + offset)
    (polls : Abreast held busy busy' Eq) (timeout : Micros) (patience : Nat) :
    Abreast held (Wait.whileBusy read busy timeout patience)
      (Wait.whileBusy read' busy' timeout patience) Eq := by
  rw [Wait.whileBusy, Wait.whileBusy]
  apply bind reads
  rintro start _ rfl
  exact whileBusyFrom reads polls start timeout patience

end Abreast

end Act

end Dmx512
