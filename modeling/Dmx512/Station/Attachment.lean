import Dmx512.Station.Basic

/-!
# Attaching and detaching a station

A link takes one station at a time. Attaching drives the direction pin, applies
the configuration and starts the sequencer that it asks for; detaching stops
the sequencer at once.
-/

namespace Dmx512.Link

variable {H : Type} [Hardware H] {d r : Nat}

/-- Claim the link for a station. The answer is whether another has it. -/
def claim : Act (Link H d r) Bool := critical do
  let e ← getEngine
  modifyEngine fun e => { e with attached := true }
  pure e.attached

/-- Apply the configuration of a new station and start the sequencer that it
asks for. -/
def setUp (config : Config) : Act (Link H d r) Unit := critical do
  setTransmitter (← (← getTransmitter).configure config)
  modifyEngine fun e => { e with direction := config.direction }
  noteNow (.turned config.direction)
  Act.onlyIf config.dataEnabled start

/-- Attach a station. A link takes one station at a time. -/
def attach (config : Config) : Act (Link H d r) (Outcome Station) := do
  if ← claim then
    pure (.error (.setup .occupied))
  else if ← onLine (Line.drive config.direction.pinLevel) then
    setUp config
    pure (.ok { config })
  else
    critical (modifyEngine fun e => { e with attached := false })
    pure (.error (.line .pin))

def detach : Act (Link H d r) Unit := critical do
  Act.onlyIf (← getEngine).running halt
  modifyEngine fun e => { e with attached := false }

end Dmx512.Link
