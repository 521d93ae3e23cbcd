import Dmx512.Node.Operation
import Dmx512.Station.Attachment
import Dmx512.Station.Rdm
import Dmx512.Station.Reading

/-!
# Nodes

A node is a link with the station attached to it, if there is one. `perform`
carries out an operation; one that needs a station answers so where none is
attached.
-/

namespace Dmx512

def Answer.ofOutcome : Outcome Unit → Answer
  | .ok () => .done
  | .error refusal => .refused refusal

/-- A link and the station attached to it. -/
structure Node (H : Type) (d r : Nat) where
  link : Link H d r
  station : Option Station := none

namespace Node

variable {H : Type} [Hardware H] {d r : Nat}

def onLink {α : Type} (act : Act (Link H d r) α) : Act (Node H d r) α := fun s => do
  let (a, link) ← act s.link
  pure (a, { s with link })

def onStation (act : Act (Attached H d r) Answer) : Act (Node H d r) Answer := fun s =>
  match s.station with
  | none => pure (.noStation, s)
  | some station => do
    let (answer, attached) ← act { station, link := s.link }
    pure (answer, { link := attached.link, station := some attached.station })

def attach (config : Config) : Act (Node H d r) Answer := do
  match ← onLink (Link.attach config) with
  | .error refusal => pure (.refused refusal)
  | .ok station =>
    modify fun s => { s with station := some station }
    pure .done

def detach : Act (Node H d r) Answer := fun s =>
  match s.station with
  | none => pure (.done, s)
  | some _ => do
    let ((), link) ← Link.detach s.link
    pure (.done, { link })

def perform : Operation → Act (Node H d r) Answer
  | .attach config => attach config
  | .detach => detach
  | .interrupt interrupt => do
    onLink (Link.serve interrupt)
    pure .done
  | .counters => do pure (.counters (← get).link.counters)
  | .setDirection target enable => onStation do
    pure (.ofOutcome (← Attached.setDirection target enable))
  | .setBreakTime us => onStation do
    pure (.timing (← Attached.applyTiming fun config => { config with breakTime := us }))
  | .setMarkTime us => onStation do
    pure (.timing (← Attached.applyTiming fun config => { config with markTime := us }))
  | .setPeriod us => onStation do
    pure (.timing (← Attached.applyTiming fun config => { config with period := us }))
  | .timing => onStation do pure (.timing (← Attached.timing))
  | .config => onStation do pure (.config (← get).station.config)
  | .direction => onStation do
    let (direction, running) ← Attached.direction
    pure (.direction direction running)
  | .sendData frame => onStation do pure (.ofOutcome (← Attached.sendData frame))
  | .sendSlots slots => onStation do pure (.ofOutcome (← Attached.sendSlots slots))
  | .takeDmx => onStation do pure (.dmx (← Attached.takeDmx))
  | .peekDmx => onStation do pure (.dmx (← Attached.peekDmx))
  | .takeChangedDmx => onStation do pure (.dmx (← Attached.takeChangedDmx))
  | .takeRdm => onStation do pure (.rdm (← Attached.takeRdm))
  | .peekRdm => onStation do pure (.rdm (← Attached.peekRdm))
  | .flush => onStation do
    Attached.flush
    pure .done
  | .statistics => onStation do pure (.statistics (← Attached.statistics))
  | .updatesPerSecond => onStation do pure (.rate (← Attached.updatesPerSecond))
  | .resetCounters => onStation do
    Attached.resetCounters
    pure .done
  | .transaction => onStation do pure (.transaction (← get).station.transaction)
  | .sendMessage message spacing => onStation do
    match ← Attached.sendMessage message spacing with
    | .ok number => pure (.transaction number)
    | .error refusal => pure (.refused refusal)
  | .sendResponse message => onStation do
    pure (.ofOutcome (← Attached.sendResponse message))
  | .sendDiscoveryResponse uid => onStation do
    pure (.ofOutcome (← Attached.sendDiscoveryResponse uid))

end Node

end Dmx512
