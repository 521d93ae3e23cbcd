import Dmx512.Reception.Messages
import Dmx512.Reception.Slots

/-!
# Signals to a receiver

The line delivers breaks, good bytes and damaged bytes. A break starts a packet
and the byte behind it decides its kind; every other byte is served by what the
receiver expects.
-/

namespace Dmx512

open Standard

/-- What the line delivers to a receiver. -/
inductive Signal where
  | lineBreak
  | byte (value : UInt8)
  /-- A byte with an error. -/
  | damaged
  deriving DecidableEq, Repr

namespace Receiver

def onStartCode (r : Receiver) (code : UInt8) (now : Micros) : Checked Receiver :=
  if code = dmxStartCode then do
    let dmxBuffer ← r.dmxBuffer.put 0 code
    let interval := r.lastDmxBreak.map (elapsed r.breakTime)
    let counters := { r.counters with
      breakToBreak := interval.getD r.counters.breakToBreak
      dmxPackets := r.counters.dmxPackets + 1 }
    pure { r with
      state := .dmxData, dmxBuffer, index := 1, slotTime := now
      lastDmxBreak := some r.breakTime, breakToBreak := interval.getD 0, counters }
  else if code = rdmStartCode then do
    let rdmBuffer ← r.rdmBuffer.put 0 code
    let counters := { r.counters with rdmPackets := r.counters.rdmPackets + 1 }
    pure { r with
      state := .rdmData, rdmBuffer, index := 1, checksum := code.toUInt16
      lastDmxBreak := none, counters }
  else
    pure { r with state := .idle, lastDmxBreak := none }

def onByte (r : Receiver) (byte : UInt8) (now : Micros) : Checked (Receiver × Option Frame) :=
  match r.state with
  | .idle => do pure (← r.onIdleByte byte, none)
  | .lineBreak => do pure (← r.onStartCode byte now, none)
  | .dmxData => r.onSlot byte now
  | .rdmData => pure (r.onMessageByte byte, none)
  | .checksumHigh => pure (r.onChecksumHigh byte, none)
  | .checksumLow => r.onChecksumLow byte now
  | .discoveryPreamble => pure (r.onPreamble byte, none)
  | .discoveryUid => pure (r.onEncodedUid byte, none)
  | .discoveryChecksum => r.onEncodedSum byte now

/-- Serve a signal that came at `now`. A damaged byte drops the partial frame,
whenever it came. -/
def hear (r : Receiver) (signal : Signal) (now : Micros) : Checked (Receiver × Option Frame) :=
  match signal with
  | .lineBreak => r.onBreak now
  | .byte value => r.onByte value now
  | .damaged => pure (r.dropFrame, none)

end Receiver

end Dmx512
