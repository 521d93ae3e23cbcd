import Dmx512.Fault
import Dmx512.Standard

/-!
# Transmit timing

The break, the mark after it and the break-to-break period of a transmitter
follow from three requested values and the length of the frame. Break and mark
are clamped; the period is the requested one unless the frame needs longer. It
is computed anew whenever an input changes, so that no frame is scheduled
faster than it can be sent.
-/

namespace Dmx512

open Standard

namespace Timing

/-- The value between `low` and `high` that is nearest to `value`. -/
def clamp (value low high : Micros) : Micros :=
  if value < low then low else if value > high then high else value

def clampBreak (us : Micros) : Micros := clamp us breakMin breakMax

def clampMark (us : Micros) : Micros := clamp us markMin markMax

/-- The shortest period that fits one frame of `payload` bytes: break, mark,
the bytes and one slot more. A payload counts as no longer than a full frame. -/
def minimumPeriod (breakTime markTime : Micros) (payload : Nat) : Checked Micros :=
  Checked.word
    (breakTime.toNat + markTime.toNat + min payload dmxCapacity * slotTime.toNat + slotTime.toNat)

/-- The period in use: the requested one if it is no shorter than the minimum,
else the minimum and a margin; never below the floor of the standard. -/
def effectivePeriod (requested minimum : Micros) : Checked Micros := do
  let period ←
    if requested ≥ minimum then
      pure requested
    else
      Checked.word (minimum.toNat + latencyMargin.toNat)
  pure (max period periodFloor)

end Timing

/-- Transmit timing resolved for one payload length. -/
structure Timing where
  /-- The break after clamping. -/
  breakTime : Micros
  /-- The mark after the break after clamping. -/
  markTime : Micros
  /-- The requested period; 0 asks for the shortest. -/
  requested : Micros
  /-- The period in use. -/
  effective : Micros
  deriving DecidableEq, Repr

namespace Timing

/-- Resolve the timing for frames of `payload` bytes, start code included. -/
def resolve (breakTime markTime requested : Micros) (payload : Nat) : Checked Timing := do
  let breakTime := clampBreak breakTime
  let markTime := clampMark markTime
  let minimum ← minimumPeriod breakTime markTime payload
  let effective ← effectivePeriod requested minimum
  pure { breakTime, markTime, requested, effective }

/-- The timing of a full frame at the default rate. -/
def standard : Timing where
  breakTime := breakTypical
  markTime := markMin
  requested := defaultPeriod
  effective := defaultPeriod

def forPayload (timing : Timing) (payload : Nat) : Checked Timing :=
  resolve timing.breakTime timing.markTime timing.requested payload

/-- The shortest period for `payload` bytes with this break and mark. -/
def minimum (timing : Timing) (payload : Nat) : Checked Micros :=
  minimumPeriod timing.breakTime timing.markTime payload

/-- The whole packets per second at the effective period. -/
def refreshRate (timing : Timing) : Checked UInt32 :=
  Checked.div 1000000 timing.effective

/-- The standard timing is the one resolved from the defaults. -/
theorem resolve_defaults :
    resolve breakTypical markMin defaultPeriod dmxCapacity = .ok standard := by
  rfl

end Timing

end Dmx512
