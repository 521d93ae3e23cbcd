import Dmx512.Line.Journal

/-!
# Hardware

A link asks of its hardware a serial interface for 250 kbit/s with its line
status, a microsecond clock with two alarms, and a direction pin. `Hardware H`
says what each use of these does to a state `H`; nothing is assumed about it,
so a statement for every `Hardware` holds for every behaviour of queues, clock
and pin.

Interrupts reach a waiting foreground where it reads the clock. `polled` lists
the interrupts that the hardware looks at there, in order, and `raised` tells
of each one whether it is served.
-/

namespace Dmx512

inductive Interrupt where
  /-- Received bytes or breaks, or room in the transmit queue. -/
  | uart
  /-- The alarm of the transmit sequence. -/
  | transmitTimer
  /-- The alarm of the receiver. -/
  | receiveTimeout
  deriving DecidableEq, Repr

/-- What a link needs of the hardware whose states are `H`. -/
class Hardware (H : Type) where
  /-- What a reading of the clock returns. -/
  clock : H → Micros
  /-- What a reading of the clock leaves. -/
  tick : H → H
  sample : H → Line.Status × H
  take : H → UInt8 × H
  obey : Order → H → H
  /-- Give the direction pin a level, and tell whether it took it. -/
  drive : Bool → H → Bool × H
  /-- The interrupts looked at before a foreground reading of the clock. -/
  polled : H → List Interrupt
  /-- Whether an interrupt is served at such a reading. -/
  raised : Interrupt → H → Bool × H
  /-- How many readings of the clock a busy-wait may make before it counts as
  endless. -/
  patience : Nat

/-- Hardware and the journal of what happened to it. -/
structure Line (H : Type) where
  hardware : H
  /-- What happened, newest first. -/
  journal : Journal := []

namespace Line

variable {H : Type} [Hardware H]

/-- What the clock shows, without reading it. -/
def now (line : Line H) : Micros := Hardware.clock line.hardware

/-- Enter an event into the journal, as of a clock reading. -/
def note (line : Line H) (time : Micros) (event : Event) : Line H :=
  { line with journal := ⟨time, event⟩ :: line.journal }

def readClock : Act (Line H) Micros := fun line =>
  let noted := line.note line.now .clockRead
  pure (line.now, { noted with hardware := Hardware.tick line.hardware })

def sample : Act (Line H) Line.Status := fun line =>
  let (status, hardware) := Hardware.sample line.hardware
  let line := { line with hardware }
  pure (status, line.note line.now (.sampled status))

def take : Act (Line H) UInt8 := fun line =>
  let (byte, hardware) := Hardware.take line.hardware
  pure (byte, { line with hardware })

def order (order : Order) : Act (Line H) Unit := fun line =>
  let noted := line.note line.now (.order order)
  pure ((), { noted with hardware := Hardware.obey order line.hardware })

/-- Give the direction pin a level, and tell whether it took it. -/
def drive (high : Bool) : Act (Line H) Bool := fun line =>
  let (driven, hardware) := Hardware.drive high line.hardware
  let noted := line.note line.now (.pin high driven)
  pure (driven, { noted with hardware })

def raised (interrupt : Interrupt) : Act (Line H) Bool := fun line =>
  let (raised, hardware) := Hardware.raised interrupt line.hardware
  pure (raised, { line with hardware })

/-- Write bytes in turn while the interface has room, and count those written. -/
def writeReady : List UInt8 → Act (Line H) Nat
  | [] => pure 0
  | byte :: rest => do
    if (← sample).txReady then
      order (.write byte)
      pure ((← writeReady rest) + 1)
    else
      pure 0

end Line

end Dmx512
