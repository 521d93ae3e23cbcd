import Dmx512.Proofs.Link.Receiving
import Dmx512.Proofs.Node.Reception
import Dmx512.Proofs.Reception.Representation

/-!
# What the receiver of a node holds

Whatever happens to a link, its receiver is one to which signals, timeouts and resets lead from
power-up: at every step of an operation, not only between operations. So the state of a receiver
tells at every moment how far it has come and what stands in its buffers.
-/

namespace Dmx512

section

variable {d r : Nat} {kinds : Step.Kind → Prop} {s t : Scene d r}

/-- What happens to a receiver are signals, timeouts and resets. -/
theorem Scene.Receives.reachable (h : s.Receives t) (before : s.engine.receiver.Reachable) :
    t.engine.receiver.Reachable := by
  cases h with
  | apart apart =>
      rw [apart.receiver]
      exact before
  | @hear signal _ _ _ _ heard =>
      have attended : s.engine.receiver.attend (.signal signal) _ = .ok _ := heard
      rw [engine_publish]
      exact before.attend attended
  | timeOut later served =>
      have attended : s.engine.receiver.attend .timeout _ = .ok _ := served
      change ((_ : Scene d r).publish _ _).engine.receiver.Reachable
      rw [engine_publish]
      exact before.attend attended
  | sync time =>
      rw [engine_sync]
      exact before
  | start input stopped first second =>
      rw [engine_start_input input]
      exact before.reset
  | halt input first second third =>
      rw [engine_halt_input input]
      exact before.reset

theorem Steps.receiver_reachable (steps : Steps kinds s t)
    (before : s.engine.receiver.Reachable) : t.engine.receiver.Reachable := by
  induction steps with
  | refl => exact before
  | tail _ step ih =>
      obtain ⟨_, _, step⟩ := step
      exact step.receives.reachable ih

end

namespace Node

open Standard

variable {H : Type} [Hardware H] {d r : Nat} {s : Node H d r}

/-- Whatever a run does, the receiver is a reachable one. -/
theorem Reachable.receiver (reachable : s.Reachable) : s.link.engine.receiver.Reachable := by
  obtain ⟨hardware, steps⟩ := reachable.steps
  exact steps.receiver_reachable .powerUp

/-- The receiver holds what its state says. That of every node is one to which signals, timeouts
and resets lead from power-up, and of each of those, at its position: a deadline is pending exactly
where slots are awaited behind the first one; slots stand behind the start code of dimmer data; a
message stands behind its start code with its running sum, up to the end that it declares if that
is long enough, and then one byte of its checksum or none; a preamble is shorter than eight bytes
and has no delimiter behind its first byte; and the sections of a discovery response stand behind
a preamble of two to eight bytes, of which the last is the delimiter if it is shorter than that. -/
theorem Reachable.receiver_represents (reachable : s.Reachable) :
    s.link.engine.receiver.Reachable ∧ ∀ r : Receiver, r.Reachable →
      (r.deadline.isSome ↔ r.state = .dmxData ∧ 2 ≤ r.index) ∧
      (r.state = .dmxData → 1 ≤ r.index ∧ r.index ≤ 512 ∧ r.dmxBuffer[0] = 0x00) ∧
      (r.state = .rdmData → 1 ≤ r.index ∧ r.index ≤ 257 ∧ r.rdmBuffer[0] = 0xCC ∧
        r.checksum = checksum (r.rdmBuffer.toList.take r.index) ∧
        (3 ≤ r.index → 3 ≤ r.rdmBuffer[2].toNat → r.index < r.rdmBuffer[2].toNat)) ∧
      (r.state = .checksumHigh → r.index = r.rdmBuffer[2].toNat ∧ 3 ≤ r.rdmBuffer[2].toNat ∧
        r.checksum = checksum (r.rdmBuffer.toList.take r.index)) ∧
      (r.state = .checksumLow → r.index = r.rdmBuffer[2].toNat + 1 ∧
        ∃ high, r.rdmBuffer[r.index - 1]? = some high ∧
          r.checksum = checksum (r.rdmBuffer.toList.take (r.index - 1)) - 256 * high.toUInt16) ∧
      (r.state = .discoveryPreamble → 1 ≤ r.index ∧ r.index ≤ 7 ∧ r.rdmBuffer[0] = 0xFE ∧
        0xAA ∉ (r.rdmBuffer.toList.take r.index).drop 1) ∧
      (r.state = .discoveryUid → r.sectionIndex < 12 ∧ ∃ length, 2 ≤ length ∧ length ≤ 8 ∧
        (r.rdmBuffer[length - 1]? = some 0xAA ∨ length = 8) ∧
        r.index = length + r.sectionIndex) ∧
      (r.state = .discoveryChecksum → r.sectionIndex < 4 ∧ ∃ length, 2 ≤ length ∧ length ≤ 8 ∧
        (r.rdmBuffer[length - 1]? = some 0xAA ∨ length = 8) ∧
        r.index = length + 12 + r.sectionIndex) := by
  refine ⟨reachable.receiver, fun r reaches => ?_⟩
  have wf := reaches.wellFormed
  refine ⟨wf.deadline, wf.holds, wf.holds, fun state => ?_, fun state => ?_, fun state => ?_,
    fun state => ?_, fun state => ?_⟩
  · obtain ⟨three, declared, _, sum⟩ := wf.holds state
    exact ⟨declared, Nat.le_trans three (Nat.le_of_eq declared), sum⟩
  · obtain ⟨_, _, _, _, declared, index, _⟩ := wf.holds state
    exact ⟨index.trans (congrArg (· + 1) declared), wf.exists_high state⟩
  · obtain ⟨one, most, preamble, open_⟩ := wf.holds state
    rw [List.drop_one]
    exact ⟨one, most, preamble, open_⟩
  · obtain ⟨section_, length, ends, index⟩ := wf.holds state
    obtain ⟨two, most, ending⟩ := ends.buffer (by omega)
    exact ⟨section_, length, two, most, ending, index⟩
  · obtain ⟨section_, length, ends, index⟩ := wf.holds state
    obtain ⟨two, most, ending⟩ := ends.buffer (by omega)
    exact ⟨section_, length, two, most, ending, index⟩

/-- A break, and a message up to the high byte of its checksum. -/
def unfinishedRun : List (Action Bench) :=
  [.disturb Bench.receiveBreak, .disturb (Bench.receive [0xCC, 0x01, 0x03, 0x12] 0x01),
    .perform (.interrupt .uart)]

/-- The message is read into the buffer of another one, whose low byte is left over behind it. -/
theorem Reachable.receiver_represents_unfinished :
    ∃ s : Node Bench 0 0, s.link.engine.receiver.Reachable ∧
      s.link.engine.receiver.state = .checksumLow ∧
      s.link.engine.receiver.rdmBuffer[4]? = some 0xD0 ∧ s.link.engine.receiver.index = 4 ∧
      s.link.engine.receiver.checksum = checksum [0xCC, 0x01, 0x03] - 256 * 0x12 := by
  have carried : (powerUp {} : Node Bench 0 0).Ends (benchStart ++ messageRun ++ unfinishedRun)
      fun s => s.link.engine.receiver.state = .checksumLow ∧
        s.link.engine.receiver.rdmBuffer.toList.take 5 = [0xCC, 0x01, 0x03, 0x12, 0xD0] := by
    decide +kernel
  obtain ⟨s, ran, state, bytes⟩ := carried
  have reachable : s.Reachable := ⟨{}, _, ran⟩
  obtain ⟨reaches, holds⟩ := Reachable.receiver_represents reachable
  obtain ⟨_, _, _, _, low, _⟩ := holds _ reaches
  obtain ⟨declared, high, last, sum⟩ := low state
  have byte {i : Nat} (inside : i < 5) :
      s.link.engine.receiver.rdmBuffer[i]? = [0xCC, 0x01, 0x03, 0x12, 0xD0][i]? := by
    rw [← bytes, List.getElem?_take_of_lt inside, Vector.getElem?_toList]
  have third : s.link.engine.receiver.rdmBuffer[2] = 0x03 := by
    have told := byte (i := 2) (by decide)
    rw [Vector.getElem?_eq_getElem (by decide)] at told
    exact Option.some.inj told
  have index : s.link.engine.receiver.index = 4 := by
    rw [declared, third]
    rfl
  rw [index] at last sum
  obtain rfl : high = 0x12 := Option.some.inj (last.symm.trans (byte (by decide)))
  have front : s.link.engine.receiver.rdmBuffer.toList.take 3 = [0xCC, 0x01, 0x03] := by
    have shorter := congrArg (List.take 3) bytes
    rwa [List.take_take] at shorter
  exact ⟨s, reaches, state, byte (by decide), index, front ▸ sum⟩

end Node

end Dmx512
