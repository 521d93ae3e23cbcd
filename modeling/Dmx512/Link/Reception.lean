import Dmx512.Link.Basic

/-!
# Reception on a link

The steps of a link that take bytes and breaks from the receive queue, hand
them to the receiver and store the frames that it completes. They belong into
the critical section of the link.
-/

namespace Dmx512.Link

variable {H : Type} [Hardware H] {d r : Nat}

def store (link : Link H d r) : Frame → Link H d r
  | .dmx frame => { link with dmxStore := link.dmxStore.push frame }
  | .rdm frame => { link with rdmStore := link.rdmStore.push frame }

/-- Publish the frame that the receiver completed at `time`, if it did. -/
def publish (time : Micros) : Option Frame → Act (Link H d r) Unit
  | none => pure ()
  | some frame => do
    note time (.published frame)
    modify fun link => link.store frame

/-- Set the receive alarm to a deadline, or disarm it. -/
def setWatchdog : Option Micros → Act (Link H d r) Unit
  | some deadline => order (.setAlarm .receiveTimeout deadline)
  | none => order (.cancelAlarm .receiveTimeout)

/-- Bring the receive alarm in line with the deadline of the receiver. An alarm
that is set to it already is left alone. -/
def syncWatchdog : Act (Link H d r) Unit := do
  let e ← getEngine
  if e.receiver.deadline = e.watchdog then
    pure ()
  else
    setWatchdog e.receiver.deadline
    modifyEngine fun e => { e with watchdog := e.receiver.deadline }

/-- The time of a signal. The clock is read for it, but not for a damaged byte. -/
def signalTime : Signal → Act (Link H d r) Micros
  | .damaged => now
  | .lineBreak | .byte _ => readClock

/-- Hand a signal to the receiver, if it runs. -/
def hear (signal : Signal) : Act (Link H d r) Unit := do
  let e ← getEngine
  if e.receiving then
    let time ← signalTime signal
    note time (.heard signal)
    let (receiver, frame) ← e.receiver.hear signal time
    setReceiver receiver
    publish time frame
  else
    pure ()

/-- Serve up to `limit` entries of the receive queue. The byte that comes with
a break is no data. -/
def drainReceive : Nat → Act (Link H d r) Unit
  | 0 => pure ()
  | limit + 1 => do
    let status ← onLine Line.sample
    if status.breakDetected then
      let _ ← onLine Line.take
      hear .lineBreak
      drainReceive limit
    else if status.dataReady then
      let byte ← onLine Line.take
      hear (if status.hasReceiveError then .damaged else .byte byte)
      drainReceive limit
    else
      pure ()

/-- Serve a timeout of the receiver, and set the alarm anew if the receiver
still waits for a slot. -/
def timeOut : Act (Link H d r) Unit := do
  let time ← readClock
  note time .receiveAlarm
  let (receiver, frame) ← (← getEngine).receiver.onTimeout time
  setReceiver receiver
  publish time frame
  order (.cancelAlarm .receiveTimeout)
  modifyEngine fun e => { e with watchdog := none }
  syncWatchdog

end Dmx512.Link
