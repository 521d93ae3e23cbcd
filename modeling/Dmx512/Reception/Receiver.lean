import Dmx512.Buffer
import Dmx512.Frame
import Dmx512.Reception.Counters

/-!
# The receiver

The receiver assembles frames in two buffers that are reused from frame to
frame. Its state says what is expected next. Malformed input never leaves it:
the partial frame is dropped and the receiver waits for the next break or
discovery preamble.
-/

namespace Dmx512

open Standard

inductive ReceiveState where
  /-- A break or a discovery preamble. -/
  | idle
  /-- The start code behind a break. -/
  | lineBreak
  /-- DMX slots. -/
  | dmxData
  /-- The bytes of a message. -/
  | rdmData
  | checksumHigh
  | checksumLow
  /-- More preamble, or the delimiter. -/
  | discoveryPreamble
  | discoveryUid
  | discoveryChecksum
  deriving DecidableEq, Repr

/-- The receiver and the packet under construction. -/
structure Receiver where
  /-- What is expected next. -/
  state : ReceiveState := .idle
  dmxBuffer : Buffer dmxCapacity := Buffer.zeros dmxCapacity
  rdmBuffer : Buffer rdmCapacity := Buffer.zeros rdmCapacity
  /-- How many bytes of the frame have arrived. -/
  index : Nat := 0
  /-- The sum of the message bytes, less the checksum bytes that have arrived. -/
  checksum : UInt16 := 0
  /-- How many bytes of the present section of a discovery response have arrived. -/
  sectionIndex : Nat := 0
  /-- When the latest break came. -/
  breakTime : Micros := 0
  /-- When the latest DMX packet began, if no other packet began since. -/
  lastDmxBreak : Option Micros := none
  /-- The break-to-break interval of the frame under construction. -/
  breakToBreak : Micros := 0
  /-- When the latest slot, or the start code before the first slot, came. -/
  slotTime : Micros := 0
  /-- The spacing of the last two slots. -/
  slotSpacing : Micros := 0
  /-- When the DMX frame under construction ends without a further slot. -/
  deadline : Option Micros := none
  counters : ReceiveCounters := {}
  deriving DecidableEq, Repr

namespace Receiver

/-- Drop a partial frame and forget the latest DMX packet. -/
def reset (r : Receiver) : Receiver :=
  { r with state := .idle, deadline := none, lastDmxBreak := none }

def dropFrame (r : Receiver) : Receiver := { r with state := .idle, deadline := none }

end Receiver

end Dmx512
