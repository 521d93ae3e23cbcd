import Dmx512.Rdm.Discovery
import Dmx512.Station.Direction

/-!
# RDM frames of a station

A station sends single RDM frames on a line that does not stream DMX. It keeps
the spacing to the latest frame received, takes the line, sends break, mark and
bytes with bounded waits, and hands the line back to the receiver.
-/

namespace Dmx512.Attached

open Standard

variable {H : Type} [Hardware H] {d r : Nat}

/-- The line status, looked at within a critical section. -/
def lineStatus : Act (Link H d r) Line.Status := Link.observe (Link.onLine Line.sample)

def queueFull : Act (Link H d r) Bool := do
  pure !(← lineStatus).txReady

def queueBusy : Act (Link H d r) Bool := do
  pure !(← lineStatus).txIdle

def sendBreak : Act (Link H d r) Unit := do
  Link.critical (Link.order (.setBreak true))
  Link.waitFor rdmBreak
  Link.critical (Link.order (.setBreak false))
  Link.waitFor rdmMark

/-- Hand bytes to the interface, waiting for room before each, then wait until
they are out. The answer is whether every wait ended in time. -/
def sendBytes : List UInt8 → Act (Link H d r) Bool
  | [] => Link.waitWhile queueBusy rdmTimeout
  | byte :: rest => do
    if ← Link.waitWhile queueFull rdmTimeout then
      Link.critical (Link.order (.write byte))
      sendBytes rest
    else
      pure false

/-- Send bytes on a line that is taken, behind a break where one is wanted. -/
def sendFrame (bytes : List UInt8) (withBreak : Bool) : Act (Link H d r) Bool := do
  Act.onlyIf withBreak sendBreak
  sendBytes bytes

/-- Whether an output stream is running, which an RDM frame would cut into. -/
def streaming : Act (Attached H d r) Bool := do
  pure ((← direction) == (.output, true))

/-- Wait until `spacing` has passed since the end of the latest RDM frame. -/
def waitSpacing (spacing : Micros) : Act (Attached H d r) Unit := do
  let ending := (← get).link.counters.rdmReceiveEnd
  let passed := elapsed (← onLink Link.foregroundClock) ending
  Act.onlyIf (decide (passed < spacing)) do
    onLink (Link.waitFor (← Checked.subWord spacing passed))

/-- Take the line, send bytes, and hand the line back to the receiver. -/
def transmit (bytes : List UInt8) (withBreak : Bool) : Act (Attached H d r) (Outcome Unit) := do
  match ← setDirection .output false with
  | .error refusal => pure (.error refusal)
  | .ok () =>
    let finished ← onLink (sendFrame bytes withBreak)
    match ← setDirection .input true with
    | .error refusal => pure (.error refusal)
    | .ok () => pure (if finished then .ok () else .error (.line .timeout))

/-- Send a message with the next transaction number, not before `spacing` has
passed since the latest RDM frame. The answer is the transaction number. -/
def sendMessage (message : List UInt8) (spacing : Micros) :
    Act (Attached H d r) (Outcome UInt8) := do
  if ← streaming then
    pure (.error (.line .streaming))
  else
    let number := (← get).station.transaction
    match Message.prepare message number with
    | (.error defect, _) => pure (.error (.message defect))
    | (.ok sum, stamped) =>
      let bytes ← Message.withChecksum stamped sum
      update fun station => { station with transaction := number + 1 }
      waitSpacing spacing
      pure ((← transmit bytes true).map fun _ => number)

/-- Send a message as it is, after the spacing of a responder. -/
def sendResponse (message : List UInt8) : Act (Attached H d r) (Outcome Unit) := do
  if ← streaming then
    pure (.error (.line .streaming))
  else
    match Message.validate message with
    | .error defect => pure (.error (.message defect))
    | .ok sum =>
      let bytes ← Message.withChecksum message sum
      waitSpacing responderSpacing
      transmit bytes true

/-- Answer a discovery request, after the spacing of a responder and without a
break. -/
def sendDiscoveryResponse (uid : Uid) : Act (Attached H d r) (Outcome Unit) := do
  if ← streaming then
    pure (.error (.line .streaming))
  else
    waitSpacing responderSpacing
    transmit (Discovery.encode uid) false

end Dmx512.Attached
