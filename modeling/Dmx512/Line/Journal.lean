import Dmx512.Line.Status
import Dmx512.Reception.Signal
import Dmx512.Transmission.Transmitter

/-!
# Orders and the journal of a line

What a link does to its hardware are `Order`s. Every order, every reading of
the clock and the line status and every milestone of the link is entered into a
journal with the time at which it happened, newest entry first. The journal is
never read by the link; it is the history that statements about runs refer to.

The functions on journals recover from the history what the hardware was last
told: the level of the break, of the direction pin and of the interrupt masks,
and the deadlines of the alarms.
-/

namespace Dmx512

inductive Alarm where
  /-- Paces the transmit sequence. -/
  | transmit
  /-- Ends a DMX frame whose next slot does not come. -/
  | receiveTimeout
  deriving DecidableEq, Repr

/-- What a link can tell its hardware to do. -/
inductive Order where
  /-- Put a break on the line, or take it off. -/
  | setBreak (asserted : Bool)
  | allowReceive (enabled : Bool)
  /-- Allow or mask the interrupt of a transmit queue with room. -/
  | allowTransmit (enabled : Bool)
  /-- Forget pending interrupts and empty the receive queue. -/
  | clearReceive
  | write (byte : UInt8)
  | setAlarm (alarm : Alarm) (deadline : Micros)
  | cancelAlarm (alarm : Alarm)
  deriving DecidableEq, Repr

inductive Event where
  | order (order : Order)
  /-- The direction pin was to take a level, and whether it did. -/
  | pin (high driven : Bool)
  /-- The clock was read; the time of the entry is the reading. -/
  | clockRead
  | sampled (status : Line.Status)
  | heard (signal : Signal)
  | published (frame : Frame)
  | queued (frame : List UInt8)
  | turned (direction : Direction)
  /-- The transmit alarm was served in a phase of a running sequence. -/
  | transmitAlarm (phase : TransmitState)
  | receiveAlarm
  deriving DecidableEq, Repr

/-- An event and the clock reading at which it happened. -/
structure Entry where
  time : Micros
  event : Event
  deriving DecidableEq, Repr

/-- A history, newest entry first. -/
abbrev Journal := List Entry

namespace Journal

def breakAsserted : Journal → Bool
  | [] => false
  | ⟨_, .order (.setBreak asserted)⟩ :: _ => asserted
  | _ :: earlier => breakAsserted earlier

def receiveAllowed : Journal → Bool
  | [] => false
  | ⟨_, .order (.allowReceive enabled)⟩ :: _ => enabled
  | _ :: earlier => receiveAllowed earlier

/-- Whether the interrupt of a transmit queue with room is allowed. -/
def transmitAllowed : Journal → Bool
  | [] => false
  | ⟨_, .order (.allowTransmit enabled)⟩ :: _ => enabled
  | _ :: earlier => transmitAllowed earlier

def alarm? (alarm : Alarm) : Journal → Option Micros
  | [] => none
  | ⟨_, .order (.setAlarm other deadline)⟩ :: earlier =>
    if other = alarm then some deadline else alarm? alarm earlier
  | ⟨_, .order (.cancelAlarm other)⟩ :: earlier =>
    if other = alarm then none else alarm? alarm earlier
  | _ :: earlier => alarm? alarm earlier

/-- The level that the direction pin last took, if it ever took one. -/
def pinLevel? : Journal → Option Bool
  | [] => none
  | ⟨_, .pin high true⟩ :: _ => some high
  | _ :: earlier => pinLevel? earlier

def direction : Journal → Direction
  | [] => .input
  | ⟨_, .turned direction⟩ :: _ => direction
  | _ :: earlier => Journal.direction earlier

/-- The bytes written, oldest first. -/
def written : Journal → List UInt8
  | [] => []
  | ⟨_, .order (.write byte)⟩ :: earlier => written earlier ++ [byte]
  | _ :: earlier => written earlier

/-- The frames published, oldest first. -/
def publications : Journal → List Frame
  | [] => []
  | ⟨_, .published frame⟩ :: earlier => publications earlier ++ [frame]
  | _ :: earlier => publications earlier

end Journal

end Dmx512
