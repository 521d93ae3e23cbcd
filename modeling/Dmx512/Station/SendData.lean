import Dmx512.Station.Basic

/-!
# Timing and send data of a station

A station sets the timing of the transmitter and queues the frames that it
sends. Both take effect without disturbing the frame on the wire.
-/

namespace Dmx512.Attached

open Standard

variable {H : Type} [Hardware H] {d r : Nat}

def timing : Act (Attached H d r) Timing :=
  onEngine do
    pure (← Link.getTransmitter).timing

/-- Take a changed configuration, and answer the timing that results. -/
def applyTiming (f : Config → Config) : Act (Attached H d r) Timing := do
  configure f
  let config := (← get).station.config
  onEngine do
    let transmitter ← (← Link.getTransmitter).configure config
    Link.setTransmitter transmitter
    pure transmitter.timing

def queueFrame (frame : List UInt8) : Act (Attached H d r) Unit :=
  onEngine do
    Link.setTransmitter (← (← Link.getTransmitter).queue frame)
    Link.noteNow (.queued frame)

/-- Queue a whole frame, start code included, of 1 to 513 bytes. -/
def sendData (frame : List UInt8) : Act (Attached H d r) (Outcome Unit) := do
  if frame = [] ∨ frame.length > dmxCapacity then
    pure (.error (.setup .invalidLength))
  else
    queueFrame frame
    pure (.ok ())

/-- Queue up to 512 slots behind the start code of dimmer data. -/
def sendSlots (slots : List UInt8) : Act (Attached H d r) (Outcome Unit) := do
  if slots.length > maxSlots then
    pure (.error (.setup .invalidLength))
  else
    queueFrame (dmxStartCode :: slots)
    pure (.ok ())

end Dmx512.Attached
