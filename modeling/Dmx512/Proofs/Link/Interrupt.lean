import Dmx512.Proofs.Link.Reception
import Dmx512.Proofs.Link.Transmission

/-!
# Interrupts make steps

An interrupt stops with no fault at all where the engine is free, and makes
interrupt steps only. So does every reading of the clock in the foreground.
-/

namespace Dmx512.Link

open Act

variable {H : Type} [Hardware H] {d r : Nat} {allowed : Fault → Prop}
variable {kinds : Step.Kind → Prop} {use : Nat × Bool} {s : Link H d r} {α : Type}

theorem Does.serve (within : kinds .interrupt) (interrupt : Interrupt) :
    Does allowed free kinds (Link.serve interrupt : Act (Link H d r) Unit) := by
  cases interrupt with
  | uart =>
      exact .critical ((Does.drainReceive within _).bind fun _ =>
        (Does.continueFrame within).bind fun _ => Does.syncWatchdog within)
  | transmitTimer => exact .critical (Does.pace within)
  | receiveTimeout => exact .critical (Does.timeOut within)

theorem Does.serveRaised (within : kinds .interrupt) (interrupts : List Interrupt) :
    Does allowed free kinds (Link.serveRaised interrupts : Act (Link H d r) Unit) := by
  induction interrupts with
  | nil => exact .pure ()
  | cons interrupt rest ih =>
      rw [Link.serveRaised]
      refine (Does.raised interrupt).bind fun raised => .ite ?_ ih
      exact (Does.serve within interrupt).bind fun _ => ih

theorem Does.foregroundClock (within : kinds .interrupt) :
    Does allowed free kinds (Link.foregroundClock : Act (Link H d r) Micros) := by
  intro s used sound
  rw [Link.foregroundClock]
  simp only [WP.bind_iff, WP.get_iff]
  apply WP.bind_iff.mp
  exact ((Does.serveRaised within _).bind fun _ => Does.readClock within) s used sound

end Dmx512.Link
