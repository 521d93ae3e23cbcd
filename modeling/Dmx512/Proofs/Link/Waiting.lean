import Dmx512.Proofs.Link.Control
import Dmx512.Proofs.Link.Interrupt

/-!
# Busy-waits of the foreground

While the foreground waits, interrupts are served. A wait for a time lasts no shorter,
however the clock moves; a wait on a condition ends with a poll that found it gone or with
its timeout.

No wait is bounded by itself. It may stall, unless the foreground finds its clock moved
on from reading to reading, and by less than half of its range: then it never does.
-/

namespace Dmx512.Link

open Act

variable {H : Type} [Hardware H] {d r : Nat} {allowed : Fault → Prop}
variable {kinds : Step.Kind → Prop} {s t u v : Link H d r}
variable {start now next : Micros} {limit n : Nat}

/-- Where no interrupt is looked at, the foreground only reads the clock. -/
theorem foregroundClock_quiet (quiet : Hardware.polled s.line.hardware = []) :
    foregroundClock s = readClock s := by
  change (serveRaised (Hardware.polled s.line.hardware) s >>= fun served =>
    readClock served.2) = _
  rw [quiet]
  rfl

/-- A reading in the foreground serves interrupts, and is then entered into the journal. -/
theorem wp_foregroundClock (used : s.uses = free) (sound : s.scene.Sound) :
    WP allowed foregroundClock (fun now t => Moves (· = .interrupt) s t ∧
      ∃ served, t.line.journal = ⟨now, .clockRead⟩ :: (served ++ s.line.journal)) s := by
  rw [foregroundClock, WP.bind_iff, WP.get_iff]
  have serves : Does allowed free (· = .interrupt)
      (Link.serveRaised (Hardware.polled s.line.hardware) : Act (Link H d r) Unit) :=
    .serveRaised (by rfl) _
  apply WP.bind (serves s used sound)
  intro _ t moves
  obtain ⟨served, older⟩ := moves.steps.journal_suffix
  rw [wp_readClock]
  exact ⟨moves.trans (.step (.readClock _) rfl rfl), served, congrArg (_ :: ·) older.symm⟩

/-- A look at the line status was all that happened to a link, if anything did. -/
def Looks (s t : Link H d r) : Prop :=
  t = s ∨ ∃ status, observe (onLine Line.sample) s = .ok (status, t)

/-- The foreground finds its clock moved on from reading to reading, by less than half of
its range, whatever is served meanwhile; and it waits for as long as the range of the
clock. -/
structure Ticking (H : Type) [Hardware H] (d r : Nat) : Prop where
  patient : 4294967296 ≤ Hardware.patience H
  moves : ∀ {s t v u : Link H d r} {now next : Micros}, s.uses = free → s.scene.Sound →
    foregroundClock s = .ok (now, t) → t.Looks v → foregroundClock v = .ok (next, u) →
    0 < (elapsed next now).toNat ∧ (elapsed next now).toNat < 2147483648

/-- A clock that moves at every reading, and not by a look at the line status, keeps pace
where no interrupt is served at the readings. -/
theorem Ticking.of_ticks (patient : 4294967296 ≤ Hardware.patience H)
    (quiet : ∀ h : H, Hardware.polled h = [])
    (ticks : ∀ h : H, 0 < (elapsed (Hardware.clock (Hardware.tick h)) (Hardware.clock h)).toNat ∧
      (elapsed (Hardware.clock (Hardware.tick h)) (Hardware.clock h)).toNat < 2147483648)
    (stands : ∀ h : H, Hardware.clock (Hardware.sample h).2 = Hardware.clock h) :
    Ticking H d r where
  patient := patient
  moves := by
    -- The clock shows after a look what it showed before.
    have looked {t v : Link H d r} (looks : t.Looks v) (used : t.uses = free) :
        v.line.now = t.line.now := by
      rcases looks with rfl | ⟨status, saw⟩
      · rfl
      · have tells : WP (fun _ => True) (observe (onLine Line.sample))
            (fun _ v => v.line.now = t.line.now) t := by
          rw [wp_observe used, wp_onLine]
          exact stands t.line.hardware
        exact tells.elim saw
    intro s t v u now next used _ read looks read'
    rw [foregroundClock_quiet (quiet _)] at read read'
    cases read
    cases read'
    rw [looked looks used]
    exact ticks s.line.hardware

/-- A wait may stall, or it does not. -/
def MayWait (allowed : Fault → Prop) (H : Type) [Hardware H] (d r : Nat) : Prop :=
  allowed .stalled ∨ Ticking H d r

theorem mayWait_isStall : MayWait Fault.IsStall H d r := .inl Fault.isStall_stalled

/-- Since a reading of `start`, the clock was read `n` times at least, and no more than
`limit` had passed at the last one. -/
inductive Counts (start : Micros) (limit n : Nat) (t : Link H d r) : Prop where
  | intro {m : Link H d r} {now : Micros} {passed : Nat} (used : m.uses = free)
      (sound : m.scene.Sound) (read : foregroundClock m = .ok (now, t))
      (shows : now = start + UInt32.ofNat passed) (counted : n ≤ passed) (within : passed ≤ limit)

namespace Counts

theorem begun (used : s.uses = free) (sound : s.scene.Sound)
    (read : foregroundClock s = .ok (start, t)) : Counts start limit 0 t :=
  .intro used sound read (by simp) (Nat.zero_le 0) (Nat.zero_le limit)

/-- At the next reading more has passed, and less than half of the range beyond the
limit. -/
theorem again (ticking : Ticking H d r) (h : Counts start limit n t) (looks : t.Looks v)
    (used : v.uses = free) (sound : v.scene.Sound) (read : foregroundClock v = .ok (next, u)) :
    ∃ passed, next = start + UInt32.ofNat passed ∧ passed < limit + 2147483648 ∧
      (passed ≤ limit → Counts start limit (n + 1) u) := by
  obtain ⟨used', sound', read', shows, counted, within⟩ := h
  obtain ⟨moved, less⟩ := ticking.moves used' sound' read' looks read
  have shows' := passed_next shows next
  exact ⟨_, shows', by omega, fun within' => .intro used sound read shows' (by omega) within'⟩

end Counts

/-- A wait that began at a reading of `start` goes on: interrupts were served, and where the
clock is `steady`, its readings count. -/
structure Waiting (steady : Prop) (s : Link H d r) (start : Micros) (limit n : Nat)
    (t : Link H d r) : Prop where
  moves : Moves (· = .interrupt) s t
  counts : steady → Counts start limit n t

namespace Waiting

variable {steady : Prop}

/-- The foreground reads the clock again. -/
theorem read (h : Waiting steady s start limit n t) (ticking : steady → Ticking H d r)
    (used : s.uses = free) (sound : s.scene.Sound) (moves : Moves (· = .interrupt) s v)
    (looks : steady → t.Looks v) :
    WP allowed foregroundClock (fun now u => Moves (· = .interrupt) s u ∧
      (∃ served, u.line.journal = ⟨now, .clockRead⟩ :: (served ++ v.line.journal)) ∧
      (steady → ∃ passed, now = start + UInt32.ofNat passed ∧ passed < limit + 2147483648 ∧
        (passed ≤ limit → Counts start limit (n + 1) u))) v := by
  have used' := moves.uses.trans used
  have sound' := moves.sound sound
  apply (wp_foregroundClock used' sound').ran.mono
  rintro now u ⟨read, serves, journal⟩
  exact ⟨moves.trans serves, journal, fun is =>
    (h.counts is).again (ticking is) (looks is) used' sound' read⟩

/-- Patience ends only where the clock is not steady. -/
theorem exhausted (may : allowed .stalled ∨ steady) (ticking : steady → Ticking H d r)
    (small : limit < 4294967296)
    (h : Waiting steady s start limit (0 + Hardware.patience H) t) : allowed .stalled := by
  rcases may with stalls | is
  · exact stalls
  · obtain ⟨_, _, _, _, counted, within⟩ := h.counts is
    have patient := (ticking is).patient
    omega

end Waiting

/-- A wait for a time serves interrupts and lasts as long. -/
theorem wp_waitFor (may : MayWait allowed H d r) (used : s.uses = free) (sound : s.scene.Sound)
    (micros : Micros) :
    WP allowed (waitFor micros) (fun _ t => s.Leads (Scene.WaitsFor micros) t) s := by
  rw [waitFor, Wait.forMicros]
  apply WP.bind (wp_foregroundClock used sound).ran
  rintro start t ⟨read, moves, before, journal⟩
  have used' := moves.uses.trans used
  have sound' := moves.sound sound
  have reads (n : Nat) (u : Link H d r)
      (h : Waiting (Ticking H d r) t start micros.toNat n u) :
      WP allowed foregroundClock (fun now v =>
        (isDue now (start + micros) = true → s.Leads (Scene.WaitsFor micros) v) ∧
        (isDue now (start + micros) = false →
          Waiting (Ticking H d r) t start micros.toNat (n + 1) v)) u := by
    apply (h.read id used' sound' h.moves fun _ => .inl rfl).mono
    rintro now v ⟨moves', ⟨served, journal'⟩, counts⟩
    constructor
    · intro due
      refine ⟨⟨(moves.trans moves').steps, fun short => ?_⟩, (moves.trans moves').uses⟩
      obtain ⟨between, older⟩ := h.moves.steps.journal_suffix
      have whole : v.scene.journal =
          (⟨now, .clockRead⟩ :: ((served ++ between) ++ ⟨start, .clockRead⟩ :: before)) ++
            s.scene.journal := by
        change v.line.journal = _
        change between ++ t.line.journal = u.line.journal at older
        rw [journal', ← older, journal]
        simp [scene]
      refine ⟨_, whole, ?_⟩
      have passed := le_elapsed_of_isDue short due
      have lasts := Journal.elapsed_le_duration ⟨now, .clockRead⟩ ⟨start, .clockRead⟩
        (served ++ between)
      rw [← List.cons_append, Journal.duration_split]
      exact Nat.le_trans passed (Nat.le_trans lasts (Nat.le_add_right _ _))
    · intro early
      refine ⟨moves', fun ticking => ?_⟩
      obtain ⟨passed, shows, near, goesOn⟩ := counts ticking
      rcases Nat.lt_or_ge micros.toNat passed with beyond | within
      · rw [isDue_of_passed shows (Nat.le_of_lt beyond) near] at early
        contradiction
      · exact goesOn within
  refine WP.untilDue reads (fun u => ?_) ⟨.refl t, fun _ => .begun used sound read⟩
  exact Waiting.exhausted may id micros.toNat_lt

/-- A wait from `s` to `t` has lasted as long as `timeout`, as its last reading tells of its
first one. -/
def Outlasts (timeout : Micros) (s t : Link H d r) : Prop :=
  ∃ start begun now between, foregroundClock s = .ok (start, begun) ∧
    t.line.journal = ⟨now, .clockRead⟩ :: (between ++ begun.line.journal) ∧
    timeout ≤ elapsed now start

/-- While the foreground waits on a condition, interrupts are served. Where the wait ends in
time, it ends with a poll that found the condition gone; otherwise it has lasted as long as
its timeout. It may stall, unless it polls the line status only. -/
theorem wp_waitWhile {busy : Act (Link H d r) Bool} {polled : Link H d r → Prop}
    {timeout : Micros} (used : s.uses = free) (sound : s.scene.Sound)
    (may : allowed .stalled ∨ Ticking H d r ∧ timeout.toNat ≤ 2147483648 ∧
      ∀ t v isBusy, busy t = .ok (isBusy, v) → t.Looks v)
    (polls : ∀ t : Link H d r, Moves (· = .interrupt) s t → WP allowed busy
      (fun isBusy u => Moves (· = .interrupt) t u ∧ (isBusy = false → polled u)) t) :
    WP allowed (waitWhile busy timeout)
      (fun ended t => Moves (· = .interrupt) s t ∧ (ended = true → polled t) ∧
        (ended = false → s.Outlasts timeout t)) s := by
  let steady : Prop := Ticking H d r ∧ timeout.toNat ≤ 2147483648 ∧
    ∀ t v isBusy, busy t = .ok (isBusy, v) → t.Looks v
  rw [waitWhile, Wait.whileBusy]
  apply WP.bind (wp_foregroundClock used sound).ran
  rintro start t ⟨read, moves, _⟩
  have used' := moves.uses.trans used
  have sound' := moves.sound sound
  have polls' (n : Nat) (u : Link H d r) (h : Waiting steady t start timeout.toNat n u) :
      WP allowed busy (fun isBusy v =>
        (isBusy = true → Moves (· = .interrupt) t v ∧
          ∃ u, Waiting steady t start timeout.toNat n u ∧ (steady → u.Looks v)) ∧
        (isBusy = false → Moves (· = .interrupt) t v ∧ polled v)) u := by
    apply (polls u (moves.trans h.moves)).ran.mono
    rintro isBusy v ⟨looked, moves', gone⟩
    exact ⟨fun _ => ⟨h.moves.trans moves', u, h, fun is => is.2.2 u v isBusy looked⟩,
      fun idle => ⟨h.moves.trans moves', gone idle⟩⟩
  have reads (n : Nat) (v : Link H d r) (h : Moves (· = .interrupt) t v ∧
        ∃ u, Waiting steady t start timeout.toNat n u ∧ (steady → u.Looks v)) :
      WP allowed foregroundClock (fun now w =>
        (elapsed now start ≥ timeout → Moves (· = .interrupt) t w ∧ s.Outlasts timeout w) ∧
        (¬ elapsed now start ≥ timeout → Waiting steady t start timeout.toNat (n + 1) w)) v := by
    obtain ⟨moves', u, waiting, looks⟩ := h
    apply (waiting.read (fun is => is.1) used' sound' moves' looks).mono
    rintro now w ⟨moves'', ⟨served, journal⟩, counts⟩
    constructor
    · intro late
      obtain ⟨between, older⟩ := moves'.steps.journal_suffix
      refine ⟨moves'', start, t, now, served ++ between, read, ?_, late⟩
      change between ++ t.line.journal = v.line.journal at older
      rw [journal, ← older, List.append_assoc]
    · intro early
      refine ⟨moves'', fun is => ?_⟩
      obtain ⟨passed, shows, near, goesOn⟩ := counts is
      apply goesOn
      have short := is.2.1
      have passes := elapsed_of_passed shows (by omega)
      have early' : ¬ timeout.toNat ≤ (elapsed now start).toNat :=
        mt UInt32.le_iff_toNat_le.mpr early
      omega
  refine (WP.whileBusyFrom polls' reads (fun u => ?_)
    ⟨.refl t, fun _ => .begun used sound read⟩).mono ?_
  · exact Waiting.exhausted may (fun is => is.1) timeout.toNat_lt
  · rintro ended u ⟨ends, late⟩
    cases ended with
    | true => exact ⟨moves.trans (ends rfl).1, fun _ => (ends rfl).2, nofun⟩
    | false => exact ⟨moves.trans (late rfl).1, nofun, fun _ => (late rfl).2⟩

theorem Does.waitWhile (within : kinds .interrupt) {busy : Act (Link H d r) Bool}
    (polls : Does Fault.IsStall free (· = .interrupt) busy) (timeout : Micros) :
    Does Fault.IsStall free kinds (Link.waitWhile busy timeout) := by
  intro s used sound
  have polled (t : Link H d r) (moved : Moves (· = .interrupt) s t) :
      WP Fault.IsStall busy
        (fun isBusy u => Moves (· = .interrupt) t u ∧ (isBusy = false → True)) t :=
    (polls t (moved.uses.trans used) (moved.sound sound)).mono
      fun _ _ moves => ⟨moves, fun _ => trivial⟩
  exact (wp_waitWhile used sound (.inl Fault.isStall_stalled) polled).mono
    fun _ _ ⟨moves, _⟩ => moves.mono fun _ interrupt => interrupt ▸ within

end Dmx512.Link
