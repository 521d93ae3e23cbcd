import Dmx512.Clock.Metronome
import Dmx512.Proofs.Act
import Dmx512.Proofs.Clock
import Dmx512.Proofs.Clock.Stride
import Mathlib.Algebra.Order.Floor.Div

/-!
# How long a busy-wait takes

A metronome tells after how many readings a wait is over. A wait for a time ends with the first
reading, the one that it begins with apart, at which that time has passed. A wait on a condition
ends with the first poll that finds it gone, or with the first such reading behind its timeout.
`Metronome.beats` counts these readings. No reading passes over the half of the clock's range in
which a deadline counts as met, so the count is exact wherever the clock starts.
-/

namespace Dmx512.Metronome

open Act

variable {m : Metronome} {step span : Micros} {j : Nat}

/-- A metronome after so many readings and so many polls. -/
def after (m : Metronome) (readings polls : Nat) : Metronome :=
  { m with
    clock := m.clock + strides m.step readings
    reads := m.reads + readings
    polls := m.polls + polls }

/-- How many steps of the clock it takes for `span` to pass, if there has to be one at least. -/
def beats (step span : Micros) : Nat := max 1 (span.toNat ⌈/⌉ step.toNat)

theorem beats_pos : 0 < beats step span := Nat.lt_of_lt_of_le Nat.one_pos (Nat.le_max_left _ _)

@[simp] theorem beats_zero (step : Micros) : beats step 0 = 1 := by
  rw [beats]
  simp

/-- A span has passed after so many steps as it takes, and not before. -/
theorem le_mul_iff_beats_le (moves : 0 < step.toNat) (positive : 0 < j) :
    span.toNat ≤ j * step.toNat ↔ beats step span ≤ j := by
  have steps : span.toNat ⌈/⌉ step.toNat ≤ j ↔ span.toNat ≤ step.toNat * j :=
    ceilDiv_le_iff_le_mul moves
  rw [beats, Nat.max_le, steps, Nat.mul_comm]
  exact ⟨fun le => ⟨positive, le⟩, And.right⟩

/-- The step with which a span has passed is the one that it passes in. -/
theorem beats_mul_lt (moves : 0 < step.toNat) (positive : 0 < span.toNat) :
    beats step span * step.toNat < span.toNat + step.toNat := by
  have split : beats step span * step.toNat = (beats step span - 1) * step.toNat + step.toNat := by
    rw [← Nat.succ_mul, Nat.succ_eq_add_one, Nat.sub_add_cancel beats_pos]
  rw [split]
  apply Nat.add_lt_add_right
  rcases Nat.eq_zero_or_pos (beats step span - 1) with none | some
  · rw [none, Nat.zero_mul]
    exact positive
  · have before : ¬ beats step span ≤ beats step span - 1 := by
      have positive : 0 < beats step span := beats_pos
      omega
    exact Nat.lt_of_not_le (mt (le_mul_iff_beats_le moves some).mp before)

/-- Until a span has passed and with the step with which it has, no more passes than it and a
step. -/
theorem mul_lt_of_le_beats (moves : 0 < step.toNat) (within : j ≤ beats step span) :
    j * step.toNat < max 1 span.toNat + step.toNat := by
  have upTo := Nat.mul_le_mul_right step.toNat within
  rcases Nat.eq_zero_or_pos span.toNat with none | some
  · have zero : span = 0 := UInt32.toNat_inj.mp none
    rw [zero, beats_zero] at upTo
    omega
  · have last := beats_mul_lt moves some
    omega

theorem strides_eq_ofNat (step : Micros) (count : Nat) :
    strides step count = UInt32.ofNat (count * step.toNat) := by
  rw [strides, UInt32.ofNat_mul, UInt32.ofNat_toNat]

/-- A deadline is met with the step with which its time has passed, and not before. -/
theorem isDue_iff_beats (moves : 0 < step.toNat) (short : step.toNat < 2147483648)
    (near : span.toNat ≤ 2147483648) (start : Micros) (positive : 0 < j)
    (within : j ≤ beats step span) :
    isDue (start + strides step j) (start + span) = true ↔ j = beats step span := by
  have bound := mul_lt_of_le_beats moves within
  have passed : start + strides step j = start + UInt32.ofNat (j * step.toNat) := by
    rw [strides_eq_ofNat]
  constructor
  · intro due
    have told := le_elapsed_of_isDue near due
    rw [elapsed_of_passed passed (by omega), le_mul_iff_beats_le moves positive] at told
    exact Nat.le_antisymm within told
  · rintro rfl
    have whole := (le_mul_iff_beats_le moves positive).mpr (Nat.le_refl (beats step span))
    exact isDue_of_passed passed whole (by omega)

/-- A timeout is over with the step with which its time has passed, and not before. -/
theorem elapsed_iff_beats (moves : 0 < step.toNat) (near : span.toNat + step.toNat ≤ 4294967296)
    (short : step.toNat < 2147483648) (start : Micros) (positive : 0 < j)
    (within : j ≤ beats step span) :
    elapsed (start + strides step j) start ≥ span ↔ j = beats step span := by
  have bound := mul_lt_of_le_beats moves within
  have passed : start + strides step j = start + UInt32.ofNat (j * step.toNat) := by
    rw [strides_eq_ofNat]
  rw [ge_iff_le, UInt32.le_iff_toNat_le, elapsed_of_passed passed (by omega),
    le_mul_iff_beats_le moves positive]
  omega

variable {allowed : Fault → Prop} {readings polls : Nat}

@[simp] theorem after_zero (m : Metronome) : m.after 0 0 = m := by
  rw [after, strides_zero, UInt32.add_zero]
  rfl

/-- A reading shows how far the clock is, and is counted. -/
theorem read_after (m : Metronome) (readings polls : Nat) :
    read (m.after readings polls) =
      .ok (m.clock + strides m.step readings, m.after (readings + 1) polls) := by
  rw [after, after, strides_succ, ← UInt32.add_assoc]
  rfl

theorem wp_read {post : Micros → Metronome → Prop} :
    WP allowed read post (m.after readings polls) ↔
      post (m.clock + strides m.step readings) (m.after (readings + 1) polls) := by
  rw [WP, read_after]

/-- Waiting for a time takes one reading, and one more for each step until it has passed. -/
theorem forMicros_eq (moves : 0 < m.step.toNat) (short : m.step.toNat < 2147483648)
    (near : span.toNat ≤ 2147483648) {patience : Nat} (patient : beats m.step span ≤ patience) :
    Wait.forMicros read span patience m = .ok ((), m.after (1 + beats m.step span) 0) := by
  have waits : WP (fun _ => False) (Wait.forMicros read span patience)
      (fun _ t => t = m.after (1 + beats m.step span) 0) (m.after 0 0) := by
    rw [Wait.forMicros, WP.bind_iff, wp_read, strides_zero, UInt32.add_zero]
    -- `n` counts the readings that were early.
    let invariant (n : Nat) (t : Metronome) : Prop :=
      t = m.after (n + 1) 0 ∧ n < beats m.step span
    have readings (n : Nat) (t : Metronome) (h : invariant n t) :
        WP (fun _ => False) read (fun now u =>
          (isDue now (m.clock + span) = true → u = m.after (1 + beats m.step span) 0) ∧
          (isDue now (m.clock + span) = false → invariant (n + 1) u)) t := by
      obtain ⟨rfl, before⟩ := h
      have told := isDue_iff_beats moves short near m.clock (Nat.succ_pos n) before
      rw [wp_read]
      refine ⟨fun due => ?_, fun early => ⟨rfl, Nat.lt_of_le_of_ne before fun last => ?_⟩⟩
      · rw [← told.mp due, Nat.add_comm 1]
      · exact Bool.false_ne_true (early.symm.trans (told.mpr last))
    refine WP.untilDue readings (fun t exhausted => ?_) ⟨rfl, beats_pos⟩
    have left := exhausted.2
    omega
  rw [after_zero] at waits
  obtain ⟨_, _, ended, rfl⟩ := waits.exists_ok
  exact ended

section Conditions

variable {β : Type}

def readBeside : Act (Metronome × β) Micros := fun (m, state) => do
  let (now, m) ← read m
  pure (now, m, state)

/-- Poll a condition, which may look at the metronome and keeps a state of its own. -/
def poll (condition : Metronome × β → Bool × β) : Act (Metronome × β) Bool := fun (m, state) =>
  pure ((condition (m, state)).1, { m with polls := m.polls + 1 }, (condition (m, state)).2)

variable (condition : Metronome × β → Bool × β) (m : Metronome) (state : β)

/-- The state in which a condition is polled after so many polls, where a reading comes before
each of them. -/
def course : Nat → β
  | 0 => state
  | polls + 1 => (condition (m.after (polls + 1) polls, course polls)).2

/-- Whether a condition holds when it is polled after so many polls. -/
def holds (polls : Nat) : Bool :=
  (condition (m.after (polls + 1) polls, course condition m state polls)).1

variable {condition m state}

theorem wp_readBeside {post : Micros → Metronome × β → Prop} {state : β} :
    WP allowed readBeside post (m.after readings polls, state) ↔
      post (m.clock + strides m.step readings) (m.after (readings + 1) polls, state) := by
  rw [WP, readBeside, read_after]
  rfl

theorem wp_poll {post : Bool → Metronome × β → Prop} :
    WP allowed (poll condition) post (m.after (polls + 1) polls, course condition m state polls) ↔
      post (holds condition m state polls)
        (m.after (polls + 1) (polls + 1), course condition m state (polls + 1)) := Iff.rfl

/-- How a wait on a condition ends: with the first poll that finds it gone, which is one of as many
as the timeout takes steps to pass; or with the last reading, where all of these find it there. -/
structure Ends (condition : Metronome × β → Bool × β) (m : Metronome) (state : β)
    (timeout : Micros) (ended : Bool) (t : Metronome × β) : Prop where
  gone : ended = true → ∃ polls, polls < beats m.step timeout ∧
    holds condition m state polls = false ∧
    t = (m.after (polls + 1) (polls + 1), course condition m state (polls + 1))
  late : ended = false →
    (∀ polls, polls < beats m.step timeout → holds condition m state polls = true) ∧
    t = (m.after (1 + beats m.step timeout) (beats m.step timeout),
      course condition m state (beats m.step timeout))

variable (condition state) in
/-- Waiting on a condition takes as many polls at most as the timeout takes steps to pass. -/
theorem whileBusy_ends (moves : 0 < m.step.toNat) (short : m.step.toNat < 2147483648)
    (near : span.toNat + m.step.toNat ≤ 4294967296) {patience : Nat}
    (patient : beats m.step span ≤ patience) :
    ∃ ended t, Wait.whileBusy readBeside (poll condition) span patience (m, state) =
      .ok (ended, t) ∧ Ends condition m state span ended t := by
  have waits : WP (fun _ => False) (Wait.whileBusy readBeside (poll condition) span patience)
      (Ends condition m state span) (m.after 0 0, state) := by
    rw [Wait.whileBusy, WP.bind_iff, wp_readBeside, strides_zero, UInt32.add_zero]
    -- `n` counts the polls so far: each found the condition there, and each reading was early.
    let invariant (n : Nat) (t : Metronome × β) : Prop :=
      t = (m.after (n + 1) n, course condition m state n) ∧ n < beats m.step span ∧
        ∀ earlier, earlier < n → holds condition m state earlier = true
    let polled (n : Nat) (t : Metronome × β) : Prop :=
      t = (m.after (n + 1) (n + 1), course condition m state (n + 1)) ∧
        n < beats m.step span ∧
        ∀ earlier, earlier < n + 1 → holds condition m state earlier = true
    have polls (n : Nat) (t : Metronome × β) (h : invariant n t) :
        WP (fun _ => False) (poll condition) (fun isBusy u =>
          (isBusy = true → polled n u) ∧
          (isBusy = false → Ends condition m state span true u)) t := by
      obtain ⟨rfl, before, lasted⟩ := h
      rw [wp_poll]
      refine ⟨fun there => ⟨rfl, before, fun earlier within => ?_⟩, fun gone => ?_⟩
      · rcases Nat.lt_succ_iff_lt_or_eq.mp within with less | rfl
        · exact lasted earlier less
        · exact there
      · exact ⟨fun _ => ⟨n, before, gone, rfl⟩, nofun⟩
    have readings (n : Nat) (t : Metronome × β) (h : polled n t) :
        WP (fun _ => False) readBeside (fun now u =>
          (elapsed now m.clock ≥ span → Ends condition m state span false u) ∧
          (¬ elapsed now m.clock ≥ span → invariant (n + 1) u)) t := by
      obtain ⟨rfl, before, lasted⟩ := h
      have told := elapsed_iff_beats moves near short m.clock (Nat.succ_pos n) before
      rw [wp_readBeside]
      refine ⟨fun late => ⟨nofun, fun _ => ?_⟩, fun early => ⟨rfl, ?_, lasted⟩⟩
      · rw [← told.mp late, Nat.add_comm 1]
        exact ⟨lasted, rfl⟩
      · exact Nat.lt_of_le_of_ne before (mt told.mpr early)
    refine (WP.whileBusyFrom polls readings (fun t exhausted => ?_) ⟨rfl, beats_pos, nofun⟩).mono ?_
    · have left := exhausted.2.1
      omega
    · rintro ended t ⟨gone, late⟩
      cases ended with
      | true => exact gone rfl
      | false => exact late rfl
  rw [after_zero] at waits
  exact waits.exists_ok

end Conditions

/-- Busy-waits are exact. On a clock that moves by the same step at every reading, below half of
its range, a wait for up to half of the range takes one reading and then one for each step until
the time has passed, whatever the clock starts at. A wait on a condition polls it no more often
than the timeout takes steps to pass, and answers whether one of so many polls finds it gone; if
so, it has taken as many readings as polls, and if not, one reading and one for each of these
steps. The steps that a time takes to pass last as long as it at least, and shorter than it and one
step more; no time at all takes one step. Neither wait runs out of patience where that suffices for
the steps. -/
theorem waits_exactly (m : Metronome) (moves : 0 < m.step.toNat)
    (short : m.step.toNat < 2147483648) :
    (∀ span : Micros, span.toNat ≤ 2147483648 → ∀ patience, beats m.step span ≤ patience →
      Wait.forMicros read span patience m = .ok ((), m.after (1 + beats m.step span) 0)) ∧
    (∀ (β : Type) (condition : Metronome × β → Bool × β) (state : β) (timeout : Micros),
      timeout.toNat + m.step.toNat ≤ 4294967296 → ∀ patience, beats m.step timeout ≤ patience →
      ∃ ended calls t state',
        Wait.whileBusy readBeside (poll condition) timeout patience (m, state) =
          .ok (ended, t, state') ∧
        calls ≤ beats m.step timeout ∧ t.polls = m.polls + calls ∧
        (ended = true ↔ ∃ call, call < beats m.step timeout ∧
          holds condition m state call = false) ∧
        (ended = true → t = m.after calls calls) ∧
        (ended = false → t = m.after (1 + beats m.step timeout) (beats m.step timeout))) ∧
    ∀ span : Micros, span.toNat ≤ beats m.step span * m.step.toNat ∧
      (0 < span.toNat → beats m.step span * m.step.toNat < span.toNat + m.step.toNat) ∧
      (span = 0 → beats m.step span * m.step.toNat = m.step.toNat) := by
  refine ⟨fun span near patience => forMicros_eq moves short near, ?_, fun span => ⟨?_, ?_, ?_⟩⟩
  · intro β condition state timeout near patience patient
    obtain ⟨ended, ⟨t, state'⟩, waited, ends⟩ :=
      whileBusy_ends condition state moves short near patient
    cases ended with
    | true =>
        obtain ⟨polls, within, gone, left⟩ := ends.gone rfl
        obtain ⟨rfl, rfl⟩ := Prod.mk.inj left
        exact ⟨true, polls + 1, _, _, waited, within, rfl,
          iff_of_true rfl ⟨polls, within, gone⟩, fun _ => rfl, nofun⟩
    | false =>
        obtain ⟨lasted, left⟩ := ends.late rfl
        obtain ⟨rfl, rfl⟩ := Prod.mk.inj left
        have never : ¬ ∃ call, call < beats m.step timeout ∧
            holds condition m state call = false := by
          rintro ⟨call, within, gone⟩
          exact Bool.false_ne_true (gone.symm.trans (lasted call within))
        exact ⟨false, _, _, _, waited, Nat.le_refl _, rfl,
          iff_of_false Bool.false_ne_true never, nofun, fun _ => rfl⟩
  · exact (le_mul_iff_beats_le moves beats_pos).mpr (Nat.le_refl _)
  · exact beats_mul_lt moves
  · rintro rfl
    rw [beats_zero, Nat.one_mul]

/-- A condition that holds for as many polls as its state counts. -/
def countdown (s : Metronome × Nat) : Bool × Nat := (decide (0 < s.2), s.2 - 1)

/-- Shortly before the clock wraps, 50 us take 8 steps of 7 us. A condition that holds for 7 polls
is gone in time, and one that holds for 8 polls is not. -/
theorem waits_exactly_wrap :
    Wait.forMicros read 50 8 { clock := 0xFFFFFFF0, step := 7 } =
      .ok ((), { clock := 47, step := 7, reads := 9 }) ∧
    (∃ t state, Wait.whileBusy readBeside (poll countdown) 50 8
      ({ clock := 0xFFFFFFF0, step := 7 }, 7) = .ok (true, t, state)) ∧
    ∃ state, Wait.whileBusy readBeside (poll countdown) 50 8
      ({ clock := 0xFFFFFFF0, step := 7 }, 8) =
        .ok (false, { clock := 47, step := 7, reads := 9, polls := 8 }, state) := by
  let m : Metronome := { clock := 0xFFFFFFF0, step := 7 }
  have eight : beats m.step 50 = 8 := by decide
  have shown (polls : Nat) : m.after (1 + beats m.step 50) polls =
      { clock := 47, step := 7, reads := 9, polls := 0 + polls } := by
    have clock : m.clock + strides m.step (1 + 8) = 47 := by decide
    rw [eight, after, clock]
  obtain ⟨waits, polls, _⟩ := waits_exactly m (by decide) (by decide)
  refine ⟨shown 0 ▸ waits 50 (by decide) 8 (Nat.le_of_eq eight), ?_, ?_⟩
  · obtain ⟨ended, _, t, state, waited, _, _, answer, _, _⟩ :=
      polls Nat countdown 7 50 (by decide) 8 (Nat.le_of_eq eight)
    have gone : ∃ call, call < beats m.step 50 ∧ holds countdown m 7 call = false :=
      ⟨7, by decide, by decide⟩
    obtain rfl := answer.mpr gone
    exact ⟨t, state, waited⟩
  · obtain ⟨ended, _, t, state, waited, _, _, answer, _, late⟩ :=
      polls Nat countdown 8 50 (by decide) 8 (Nat.le_of_eq eight)
    have lasts : ∀ call, call < beats m.step 50 → holds countdown m 8 call ≠ false := by decide
    have expired : ended = false := by
      apply Bool.eq_false_iff.mpr
      intro inTime
      obtain ⟨call, within, gone⟩ := answer.mp inTime
      exact lasts call within gone
    subst expired
    rw [late rfl, shown, eight] at waited
    exact ⟨state, waited⟩

end Dmx512.Metronome
