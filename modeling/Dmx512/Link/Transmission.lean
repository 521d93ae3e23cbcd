import Dmx512.Link.Basic

/-!
# Transmission on a link

The steps of a link that carry the transmit sequence out on the line: one phase
per alarm, and the bytes of a frame as the interface makes room for them. They
belong into the critical section of the link.
-/

namespace Dmx512.Link

open Standard

variable {H : Type} [Hardware H] {d r : Nat}

/-- Hand bytes of the present frame to the interface while it has room, and
tell whether it has taken them all. -/
def fill : Act (Link H d r) Bool := do
  let t ← getTransmitter
  let count ← onLine (Line.writeReady (t.wire.drop t.sent))
  setTransmitter { t with sent := t.sent + count }
  pure (t.sent + count == t.wire.length)

/-- Go on with a frame whose bytes wait for room. -/
def continueFrame : Act (Link H d r) Unit := do
  let t ← getTransmitter
  if t.state = .data then
    if ← fill then
      order (.allowTransmit false)
      modifyTransmitter fun t => { t with state := .interPacket }
    else
      pure ()
  else
    pure ()

/-- Begin the next frame with its break, unless the last one was to be the
last. -/
def beginBreak (now : Micros) : Act (Link H d r) (Option Micros) := do
  let t ← getTransmitter
  if t.stopping then
    setTransmitter { t with state := .idle }
    pure none
  else
    let t ← t.beginFrame now
    setTransmitter t
    order (.setBreak true)
    pure (some (now + t.timing.breakTime))

/-- End the break; a mark follows. -/
def beginMark (now : Micros) : Act (Link H d r) (Option Micros) := do
  let t ← getTransmitter
  order (.setBreak false)
  setTransmitter { t with state := .markAfterBreak }
  pure (some (now + t.timing.markTime))

/-- Note how far the first filling of the transmit queue came: the whole frame,
or a part of it that room in the queue will continue. -/
def settleData : Bool → Act (Link H d r) Unit
  | true => modifyTransmitter fun t => { t with state := .interPacket }
  | false => do
    modifyTransmitter fun t => { t with state := .data }
    order (.allowTransmit true)

/-- Begin the bytes of the frame. The next frame follows a period after the
break of this one. -/
def beginData : Act (Link H d r) (Option Micros) := do
  modifyTransmitter fun t => { t with sent := 0 }
  settleData (← fill)
  let t ← getTransmitter
  pure (some (t.frameStart + t.timing.effective))

/-- Find bytes of the frame still waiting, and give them time. -/
def awaitData (now : Micros) : Act (Link H d r) (Option Micros) := do
  modifyTransmitter Transmitter.overrun
  let wait ← (← getTransmitter).catchUpTime
  pure (some (now + wait))

/-- Advance the transmit sequence by one phase. The answer is when to do so
again. -/
def advance (now : Micros) : TransmitState → Act (Link H d r) (Option Micros)
  | .idle => beginBreak now
  | .lineBreak => beginMark now
  | .markAfterBreak => beginData
  | .data => awaitData now
  | .interPacket => beginBreak now

def setPace : Option Micros → Act (Link H d r) Unit
  | some deadline => order (.setAlarm .transmit deadline)
  | none => order (.cancelAlarm .transmit)

def pace : Act (Link H d r) Unit := do
  let e ← getEngine
  if e.sending then
    let time ← readClock
    note time (.transmitAlarm e.transmitter.state)
    setPace (← advance time e.transmitter.state)
  else
    setPace none

end Dmx512.Link
