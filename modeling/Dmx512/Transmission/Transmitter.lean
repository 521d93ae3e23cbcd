import Dmx512.Config

/-!
# The transmitter

The transmitter sends one frame per period: a break, a mark, then the bytes of
the frame as fast as the interface takes them. The frame on the wire is never
changed while it goes out: send data is queued behind it and takes its place
when the next break begins. This module holds the state of that sequence and
the steps that touch nothing else; a link carries them out on the line.
-/

namespace Dmx512

open Standard

inductive TransmitState where
  /-- Not sending. -/
  | idle
  | lineBreak
  | markAfterBreak
  /-- Bytes of the frame wait for room in the interface. -/
  | data
  /-- The frame is handed over; the next period is awaited. -/
  | interPacket
  deriving DecidableEq, Repr

structure Transmitter where
  state : TransmitState := .idle
  wire : List UInt8 := List.replicate dmxCapacity 0
  /-- The frame that the next break puts on the wire, if it is a new one. -/
  queued : Option (List UInt8) := none
  /-- How many bytes of the frame the interface has taken. -/
  sent : Nat := 0
  timing : Timing := Timing.standard
  /-- When the break of the present frame began. -/
  frameStart : Micros := 0
  /-- Whether the present frame is the last. -/
  stopping : Bool := false
  /-- Alarms that found bytes of the frame still waiting. -/
  overruns : UInt32 := 0
  deriving DecidableEq, Repr

namespace Transmitter

/-- The longest frame that the period has to fit: the one on the wire or the
one queued behind it. -/
def payload (t : Transmitter) : Nat :=
  match t.queued with
  | some frame => max t.wire.length frame.length
  | none => t.wire.length

def isBusy (t : Transmitter) : Bool :=
  match t.state with
  | .lineBreak | .markAfterBreak | .data => true
  | .idle | .interPacket => false

def configure (t : Transmitter) (config : Config) : Checked Transmitter := do
  pure { t with timing := ← config.timing t.payload }

/-- Queue a frame for the next break, in place of one queued before. -/
def queue (t : Transmitter) (frame : List UInt8) : Checked Transmitter := do
  if frame.length ≤ dmxCapacity then
    let t := { t with queued := some frame }
    pure { t with timing := ← t.timing.forPayload t.payload }
  else
    throw .outOfBounds

/-- Get ready: the next alarm begins a break. -/
def start (t : Transmitter) : Transmitter := { t with state := .idle, stopping := false }

/-- Let the present frame be the last. -/
def requestStop (t : Transmitter) : Transmitter := { t with stopping := true }

def stop (t : Transmitter) : Transmitter := { t with state := .idle, stopping := false, sent := 0 }

/-- Put the queued frame, if there is one, on the wire and begin its break. -/
def beginFrame (t : Transmitter) (now : Micros) : Checked Transmitter := do
  let t ←
    match t.queued with
    | some frame =>
      pure { t with wire := frame, queued := none, timing := ← t.timing.forPayload frame.length }
    | none => pure t
  pure { t with frameStart := now, state := .lineBreak }

/-- The bytes of the frame that the interface has not taken yet. -/
def remaining (t : Transmitter) : Checked Nat := Checked.sub t.wire.length t.sent

/-- How long the remaining bytes need, and one slot more. -/
def catchUpTime (t : Transmitter) : Checked Micros := do
  Checked.word ((← t.remaining) * slotTime.toNat + slotTime.toNat)

def overrun (t : Transmitter) : Transmitter := { t with overruns := t.overruns + 1 }

end Transmitter

end Dmx512
