import Dmx512.Fault
import Dmx512.Clock

/-!
# Busy-waits

A busy-wait reads a clock until a condition holds. The loops are generic in the
state that reading the clock changes, so that the same definitions serve a bare
clock and a link whose interrupts are delivered at the readings.

A wait is not bounded by itself: a clock that stands still never reaches a
deadline. Every loop therefore carries a `patience`, the number of readings
after which it counts as endless and stops with `Fault.stalled`; no result of a
finished wait depends on it.
-/

namespace Dmx512.Wait

variable {σ : Type}

def untilDue (read : Act σ Micros) (deadline : Micros) : Nat → Act σ Unit
  | 0 => throw .stalled
  | patience + 1 => do
    if isDue (← read) deadline then
      pure ()
    else
      untilDue read deadline patience

/-- Read the clock until `micros` have passed since the first reading. -/
def forMicros (read : Act σ Micros) (micros : Micros) (patience : Nat) : Act σ Unit := do
  untilDue read ((← read) + micros) patience

/-- Poll `busy`, reading the clock after every poll that finds it so, until it
is not (`true`) or `timeout` has passed since `start` (`false`). -/
def whileBusyFrom (read : Act σ Micros) (busy : Act σ Bool) (start timeout : Micros) :
    Nat → Act σ Bool
  | 0 => throw .stalled
  | patience + 1 => do
    if ← busy then
      if elapsed (← read) start ≥ timeout then
        pure false
      else
        whileBusyFrom read busy start timeout patience
    else
      pure true

/-- Wait while `busy` holds, for at most `timeout`. The answer is whether the
wait ended before the timeout. -/
def whileBusy (read : Act σ Micros) (busy : Act σ Bool) (timeout : Micros) (patience : Nat) :
    Act σ Bool := do
  whileBusyFrom read busy (← read) timeout patience

end Dmx512.Wait
