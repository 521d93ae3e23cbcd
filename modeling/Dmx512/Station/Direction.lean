import Dmx512.Station.SendData

/-!
# Turning the line

Before a station turns the line, the sequencer that runs is stopped, and a frame
going out may drain for a bounded time; then the pin is driven, and only where
that worked does the link take the new direction.
-/

namespace Dmx512.Attached

variable {H : Type} [Hardware H] {d r : Nat}

/-- Whether a frame is going out or bytes are still in the interface. -/
def transmitBusy : Act (Link H d r) Bool := Link.critical do
  if (← Link.getTransmitter).isBusy then
    pure true
  else
    pure !(← Link.onLine Line.sample).txIdle

/-- Let the frame going out be the last, where the line sends. The answer is
the direction of the line. -/
def requestStop : Act (Attached H d r) Direction := onEngine do
  let e ← Link.getEngine
  Act.onlyIf (e.direction == .output) (Link.modifyTransmitter Transmitter.requestStop)
  pure e.direction

/-- Wait for the frame going out, for as long as the configuration allows. -/
def drain : Act (Attached H d r) Unit := do
  let timing ← timing
  let timeout := (← get).station.config.drainTimeoutFor timing
  let _ ← onLink (Link.waitWhile transmitBusy timeout)

/-- Stop the running sequencer. A frame going out may drain first. -/
def stopSequencer : Act (Attached H d r) Unit := do
  let direction ← requestStop
  Act.onlyIf (direction == .output) drain
  onEngine Link.halt

/-- Start or stop the sequencer of the present direction, as far as it is not
running or stopped as wanted. -/
def settle (running enable : Bool) : Act (Attached H d r) Unit :=
  match running, enable with
  | false, true => onEngine Link.start
  | true, false => stopSequencer
  | _, _ => pure ()

def takeDirection (target : Direction) (enable : Bool) : Act (Attached H d r) Unit := do
  onEngine do
    Link.modifyEngine fun e => { e with direction := target }
    Link.noteNow (.turned target)
    Act.onlyIf enable Link.start
  configure fun config => { config with direction := target, dataEnabled := enable }

/-- Turn an idle line: the pin first, then the direction. -/
def turn (target : Direction) (enable : Bool) : Act (Attached H d r) (Outcome Unit) := do
  if ← onLink (Link.onLine (Line.drive target.pinLevel)) then
    takeDirection target enable
    pure (.ok ())
  else
    pure (.error (.line .pin))

/-- Give the line a direction, with its sequencer running or not. A sequencer
that runs in the other direction is stopped first; one that runs in the same
direction is left alone if it is wanted. -/
def setDirection (target : Direction) (enable : Bool) :
    Act (Attached H d r) (Outcome Unit) := do
  let (current, running) ← direction
  if target = current then
    settle running enable
    configure fun config => { config with dataEnabled := enable }
    pure (.ok ())
  else
    Act.onlyIf running stopSequencer
    turn target enable

end Dmx512.Attached
