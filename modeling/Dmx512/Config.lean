import Dmx512.Transmission.Timing

/-!
# Configuration

What the user of a link sets: the requested transmit timing, the direction of
the line, whether data flows from the start, and how long a stopping
transmitter may take to drain.
-/

namespace Dmx512

open Standard

/-- The direction of the half-duplex line. -/
inductive Direction where
  /-- Receiving; the line driver is off. -/
  | input
  /-- Sending; the line driver is on. -/
  | output
  deriving DecidableEq, Repr

/-- The level of the direction pin, high to drive the line. -/
def Direction.pinLevel : Direction → Bool
  | .input => false
  | .output => true

structure Config where
  breakTime : Micros := breakTypical
  markTime : Micros := markMin
  /-- The requested period; 0 asks for the shortest. -/
  period : Micros := defaultPeriod
  direction : Direction := .input
  /-- Whether the sequencer of the direction runs. -/
  dataEnabled : Bool := true
  /-- How long a stopping transmitter may drain, if that is set. -/
  drainTimeout : Option Micros := none
  deriving DecidableEq, Repr

namespace Config

def timing (config : Config) (payload : Nat) : Checked Timing :=
  Timing.resolve config.breakTime config.markTime config.period payload

/-- How long a transmitter running at `timing` may drain: what is set, else
two periods and some slack, or the greatest word if that is more. -/
def drainTimeoutFor (config : Config) (timing : Timing) : Micros :=
  match config.drainTimeout with
  | some us => us
  | none => UInt32.ofNat (min (2 * timing.effective.toNat + drainSlack) 0xFFFFFFFF)

end Config

end Dmx512
