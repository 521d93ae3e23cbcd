import Dmx512.Link.Interrupt
import Dmx512.Refusal
import Dmx512.Station.Sampler

/-!
# The station

A station is the one foreground user of a link. It drives the direction pin,
applies the configuration, takes received frames from the stores and makes the
bounded waits that no interrupt may make: for a frame to drain before the line
turns, and for the break, mark and bytes of an RDM frame.

Operations act on the station together with its link. A refused operation is
an ordinary answer: what was done before the refusal stays done.
-/

namespace Dmx512

/-- What a station keeps for itself. -/
structure Station where
  config : Config
  transaction : UInt8 := 0
  /-- The DMX frame last read. -/
  dmxFrame : DmxFrame := {}
  /-- The DMX frame last reported as a change. -/
  lastChanged : Option DmxFrame := none
  /-- The RDM frame last read. -/
  rdmFrame : RdmFrame := {}
  view : Sampler := {}
  deriving DecidableEq, Repr

structure Attached (H : Type) (d r : Nat) where
  station : Station
  link : Link H d r

/-- The outcome of an operation that may be refused. -/
abbrev Outcome (α : Type) := Except Refusal α

namespace Attached

variable {H : Type} [Hardware H] {d r : Nat}

def onLink {α : Type} (act : Act (Link H d r) α) : Act (Attached H d r) α := fun s => do
  let (a, link) ← act s.link
  pure (a, { s with link })

/-- Act on the engine of the link, within its critical section. -/
def onEngine {α : Type} (act : Act (Link H d r) α) : Act (Attached H d r) α :=
  onLink (Link.critical act)

def update (f : Station → Station) : Act (Attached H d r) Unit :=
  modify fun s => { s with station := f s.station }

def configure (f : Config → Config) : Act (Attached H d r) Unit :=
  update fun station => { station with config := f station.config }

/-- The direction of the line and whether its sequencer runs. -/
def direction : Act (Attached H d r) (Direction × Bool) :=
  onLink <| Link.observe do
    let e ← Link.getEngine
    pure (e.direction, e.running)

end Attached

end Dmx512
