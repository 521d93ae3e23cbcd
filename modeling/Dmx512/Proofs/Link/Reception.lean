import Dmx512.Proofs.Link.Spec

/-!
# Reception makes steps

Draining the receive queue hands signals to the receiver one after the other,
and serving its timeout disarms the alarm before it is brought in line again.
A well-formed receiver makes no fault of either.
-/

namespace Dmx512.Link

open Act

variable {H : Type} {d r : Nat} {allowed : Fault → Prop} {kinds : Step.Kind → Prop}
variable {use : Nat × Bool} {s : Link H d r}

theorem wp_publish (time : Micros) (frame : Option Frame) :
    WP allowed (publish time frame)
      (fun _ t => t.scene = s.scene.publish time frame ∧ t.uses = s.uses) s := by
  rcases frame with - | frame | frame <;> exact ⟨rfl, rfl⟩

variable [Hardware H]

theorem setWatchdog_eq (deadline : Option Micros) :
    setWatchdog deadline =
      (order (alarmOrder .receiveTimeout deadline) : Act (Link H d r) Unit) := by
  cases deadline <;> rfl

theorem wp_syncWatchdog :
    WP allowed syncWatchdog
      (fun _ t => ∃ time, t.scene = s.scene.sync time ∧ t.uses = s.uses) s := by
  rw [syncWatchdog]
  simp only [WP.bind_iff, wp_getEngine, WP.ite_iff, WP.pure_iff, setWatchdog_eq, wp_order,
    wp_modifyEngine]
  refine ⟨fun same => ⟨0, ?_, trivial⟩, fun differs => ⟨s.line.now, ?_, rfl⟩⟩
  · exact (if_pos same).symm
  · exact (if_neg differs).symm

theorem Does.syncWatchdog (within : kinds .interrupt) :
    Does allowed use kinds (Link.syncWatchdog : Act (Link H d r) Unit) := by
  intro s _ _
  apply wp_syncWatchdog.mono
  rintro _ t ⟨time, scene, used⟩
  exact .step (scene ▸ .sync time) within used

/-- Whether or not the clock is read for it, the engine is the same. -/
theorem wp_signalTime (within : kinds .interrupt) (signal : Signal) :
    WP allowed (signalTime signal)
      (fun _ t => Moves kinds s t ∧ t.cell.value = s.cell.value) s := by
  cases signal with
  | damaged => exact ⟨.refl s, rfl⟩
  | lineBreak | byte => exact ⟨.step (.readClock _) within rfl, rfl⟩

theorem Does.hear (within : kinds .interrupt) (signal : Signal) :
    Does allowed use kinds (Link.hear signal : Act (Link H d r) Unit) := by
  intro s used sound
  rw [Link.hear]
  simp only [WP.bind_iff, wp_getEngine, WP.ite_iff, WP.pure_iff]
  refine ⟨fun receiving => ?_, fun _ => .refl s⟩
  apply (wp_signalTime within signal).mono
  rintro time t ⟨moves, same⟩
  obtain ⟨receiver, frame, heard, _⟩ := sound.receiver.attend (.signal signal) time
  change s.cell.value.receiver.hear signal time = _ at heard
  simp only [wp_note, heard, WP.lift_ok_iff, wp_setReceiver]
  apply (wp_publish time frame).mono
  rintro _ u ⟨scene, used⟩
  rw [← same] at receiving heard
  exact moves.trans (.step (scene ▸ .hear receiving heard) within used)

theorem Does.drainReceive (within : kinds .interrupt) (limit : Nat) :
    Does allowed use kinds (Link.drainReceive limit : Act (Link H d r) Unit) := by
  induction limit with
  | zero => exact .pure ()
  | succ limit ih =>
      rw [Link.drainReceive]
      refine (Does.sample within).bind fun status => .ite ?_ (.ite ?_ (.pure ()))
      · exact Does.take.bind fun _ => (Does.hear within _).bind fun _ => ih
      · exact Does.take.bind fun _ => (Does.hear within _).bind fun _ => ih

theorem Does.timeOut (within : kinds .interrupt) :
    Does allowed use kinds (Link.timeOut : Act (Link H d r) Unit) := by
  intro s used sound
  obtain ⟨receiver, frame, served, _⟩ := sound.receiver.attend .timeout s.line.now
  change s.cell.value.receiver.onTimeout s.line.now = _ at served
  rw [Link.timeOut]
  simp only [WP.bind_iff, wp_readClock, wp_note, wp_getEngine, served, WP.lift_ok_iff,
    wp_setReceiver]
  apply (wp_publish s.line.now frame).mono
  rintro _ t ⟨published, used⟩
  simp only [wp_order, wp_modifyEngine]
  apply wp_syncWatchdog.mono
  rintro _ u ⟨time, synced, used'⟩
  let read : Link H d r := { s with line := {
    hardware := Hardware.tick s.line.hardware
    journal := ⟨s.line.now, .clockRead⟩ :: s.line.journal } }
  have reads : Moves kinds s read := .step (.readClock s.line.now) within rfl
  refine reads.trans ⟨?_, used'.trans used⟩
  rw [synced]
  refine .snoc (.single (.timeOut (s := read.scene) t.line.now served) within) ?_ within
  have disarmed : _ = ((read.scene.note s.line.now .receiveAlarm).withReceiver receiver).publish
    s.line.now frame := published
  rw [← disarmed]
  exact .sync time

end Dmx512.Link
