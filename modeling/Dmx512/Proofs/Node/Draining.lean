import Dmx512.Proofs.Node.Switching

/-!
# How long a node drains

A node that sends is stopped or turned only when its frame has gone out, or the drain timeout
of its configuration is over. On a clock that moves by the same step at every reading, with no
interrupts served, that is a matter of the step: the clock must tell sooner or later that as
much as the timeout has passed. For most timeouts it does, whatever the step. Of the longest
quarter, some are never told, and a frame that does not go out is then waited for without end.
-/

namespace Dmx512.Node

open Act Link

variable {H : Type} [Hardware H] {d r : Nat} {s : Node H d r} {station : Station}
variable {step : Micros} {among : H → Prop} {target : Direction} {enable : Bool}

/-- Where the clock never tells that the drain timeout has passed, a frame that does not go
out is waited for without end, however often the clock is read. -/
theorem Sound.setDirection_stalls (h : s.Sound) (present : s.station = some station)
    (striding : Striding H step among) (at_ : among s.link.line.hardware)
    (sending : s.link.engine.sending = true) (stops : target = .output → enable = false)
    (untold : farthest step <
      (station.config.drainTimeoutFor s.link.engine.transmitter.timing).toNat)
    (lasts : Attached.Lasts among s.link) :
    (∀ patience, Wait.whileBusy foregroundClock Attached.transmitBusy
      (station.config.drainTimeoutFor s.link.engine.transmitter.timing) patience s.link.asked =
        .error .stalled) ∧
      perform (.setDirection target enable) s = .error .stalled := by
  have ready := h.ready present
  have used : s.link.asked.uses = Link.free := h.free
  have polls := Attached.polls_transmitBusy striding used
  have endless := striding.whileBusy_stalls polls at_ untold lasts
  refine ⟨endless, WP.stalls ((wp_onStation_some present).mpr ?_)⟩
  exact WP.bind (ready.wp_setDirection_endless sending stops (endless _))
    fun _ _ impossible => impossible.elim

/-- How far a drain is bounded. On a clock of constant step and with no interrupts served, a
node takes a direction unless it sends, is not to go on, and the clock never tells that the
drain timeout has passed. Whatever the step is below half of the range, three quarters of all
timeouts are told. A node whose timeout is not, and whose frame does not go out, waits without
end. -/
theorem Reachable.drain_bounded (reachable : s.Reachable) (present : s.station = some station)
    (striding : Striding H step among) (moves : 0 < step.toNat)
    (at_ : among s.link.line.hardware) (target : Direction) (enable : Bool) :
    let timeout := station.config.drainTimeoutFor s.link.engine.transmitter.timing
    ((s.link.engine.sending = true → (target = .output → enable = false) →
        timeout.toNat ≤ farthest step) →
      ∃ answer t, perform (.setDirection target enable) s = .ok (answer, t)) ∧
    (step.toNat < 2147483648 → timeout.toNat ≤ 3221225472 →
      ∃ answer t, perform (.setDirection target enable) s = .ok (answer, t)) ∧
    (s.link.engine.sending = true → (target = .output → enable = false) →
      farthest step < timeout.toNat → Attached.Lasts among s.link →
      (∀ patience, Wait.whileBusy foregroundClock Attached.transmitBusy timeout patience
        s.link.asked = .error .stalled) ∧
      perform (.setDirection target enable) s = .error .stalled) := by
  intro timeout
  have sound := reachable.sound
  have ends (told : s.link.engine.sending = true → (target = .output → enable = false) →
      timeout.toNat ≤ farthest step) :
      ∃ answer t, perform (.setDirection target enable) s = .ok (answer, t) := by
    obtain ⟨answer, t, ended, _⟩ := (sound.wp_setDirection present target enable
      fun sending stops => (sound.ready present).mayDrain_striding striding moves at_ sending
        (told sending stops)).exists_ok
    exact ⟨answer, t, ended⟩
  refine ⟨ends, fun short within => ends fun _ _ => ?_, ?_⟩
  · exact Nat.le_trans within (le_farthest moves short)
  · exact fun sending stops untold lasts =>
      sound.setDirection_stalls present striding at_ sending stops untold lasts

/-- The clock of a bench moves by its step. -/
theorem striding_bench (step : Micros) :
    Striding Bench step fun b => b.step = step ∧ b.delivers = false where
  patient := by decide
  quiet b at_ := by
    change (if b.delivers then [_, _, _] else []) = []
    rw [at_.2]
    rfl
  ticks b at_ := ⟨at_, congrArg (b.clock + ·) at_.1⟩
  looks b at_ := ⟨at_, rfl⟩

/-- An output with its break on the line and a drain timeout, at a clock that moves by a quarter
of its range. -/
def quarterDrain (timeout : Micros) : List (Action Bench) :=
  [.disturb (Bench.setStep 1073741824), .perform (.attach
    { direction := .output, drainTimeout := some timeout }), .perform (.interrupt .transmitTimer)]

/-- The longest timeout that such a clock tells ends a drain of a frame that goes no further. -/
theorem Reachable.drain_bounded_quarter :
    ∃ s : Node Bench 0 0, s.Reachable ∧ s.link.engine.sending = true ∧
      s.link.engine.transmitter.isBusy = true ∧ farthest 1073741824 = 3221225472 ∧
      ∃ answer t, perform (.setDirection .input true) s = .ok (answer, t) := by
  have carried : (powerUp {} : Node Bench 0 0).Ends (quarterDrain 3221225472) fun s =>
      s.station = some { config := { direction := .output, drainTimeout := some 3221225472 } } ∧
        s.link.engine.sending = true ∧ s.link.engine.transmitter.isBusy = true ∧
        s.link.line.hardware.step = 1073741824 ∧ s.link.line.hardware.delivers = false := by
    decide +kernel
  obtain ⟨s, ran, present, sending, busy, at_⟩ := carried
  have reachable : s.Reachable := ⟨{}, _, ran⟩
  have told : (3221225472 : Micros).toNat ≤ 3221225472 := by decide
  obtain ⟨_, ends, _⟩ := Reachable.drain_bounded reachable present (striding_bench 1073741824)
    (by decide) at_ .input true
  exact ⟨s, reachable, sending, busy, by decide, ends (by decide) told⟩

/-- The longest timeout of all ends no drain. -/
theorem drain_unbounded :
    ∃ s : Node Bench 0 0, s.Reachable ∧ s.link.line.hardware.step = 1073741824 ∧
      s.link.line.hardware.delivers = false ∧
      (∀ patience, Wait.whileBusy foregroundClock Attached.transmitBusy 0xFFFFFFFF patience
        s.link.asked = .error .stalled) ∧
      perform (.setDirection .input true) s = .error .stalled := by
  have carried : (powerUp {} : Node Bench 0 0).Ends (quarterDrain 0xFFFFFFFF) fun s =>
      s.station = some { config := { direction := .output, drainTimeout := some 0xFFFFFFFF } } ∧
        s.link.engine.sending = true ∧ s.link.engine.transmitter.isBusy = true ∧
        s.link.line.hardware.step = 1073741824 ∧ s.link.line.hardware.delivers = false := by
    decide +kernel
  obtain ⟨s, ran, present, sending, busy, at_⟩ := carried
  have reachable : s.Reachable := ⟨{}, _, ran⟩
  have untold : farthest 1073741824 < (0xFFFFFFFF : Micros).toNat := by decide
  have stops : Direction.input = .output → true = false := nofun
  obtain ⟨endless, stalls⟩ := reachable.sound.setDirection_stalls present
    (striding_bench 1073741824) at_ sending stops untold (.inl busy)
  exact ⟨s, reachable, at_.1, at_.2, endless, stalls⟩

end Dmx512.Node
