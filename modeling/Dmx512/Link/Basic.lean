import Dmx512.Cell
import Dmx512.Frame.Store
import Dmx512.Line.Hardware

/-!
# The link

A link is what the interrupts and the foreground share: the line, the receiver
and the transmitter, and the stores of received frames. The engine, that is
receiver, transmitter and direction, is guarded: `critical` enters its critical
section and leaves it again, and a use within another is a fault. Counters and
stores are read without one.
-/

namespace Dmx512

/-- What is guarded by the critical section of a link. -/
structure Engine where
  receiver : Receiver := {}
  transmitter : Transmitter := {}
  direction : Direction := .input
  /-- Whether the sequencer of the direction runs. -/
  running : Bool := false
  attached : Bool := false
  /-- The deadline that the receive alarm is set to. -/
  watchdog : Option Micros := none
  deriving DecidableEq, Repr

namespace Engine

/-- Whether signals are handed to the receiver. -/
def receiving (e : Engine) : Bool := e.running && e.direction == .input

/-- Whether transmit alarms are served. -/
def sending (e : Engine) : Bool := e.running && e.direction == .output

end Engine

/-- What both directions of a link have counted and measured since power-up. -/
structure Counters extends ReceiveCounters where
  /-- Transmit alarms that found the frame before unfinished. -/
  transmitOverruns : UInt32 := 0
  deriving DecidableEq, Repr, Inhabited

/-- A link on hardware `H` with stores for `2 ^ d` DMX and `2 ^ r` RDM frames. -/
structure Link (H : Type) (d r : Nat) where
  line : Line H
  cell : Cell Engine := { value := {} }
  /-- The DMX frames not read yet. -/
  dmxStore : Frame.Store DmxFrame d := .empty {}
  /-- The RDM frames not read yet. -/
  rdmStore : Frame.Store RdmFrame r := .empty {}

namespace Link

variable {H : Type} [Hardware H] {d r : Nat}

def engine (link : Link H d r) : Engine := link.cell.value

def counters (link : Link H d r) : Counters where
  toReceiveCounters := link.engine.receiver.counters
  transmitOverruns := link.engine.transmitter.overruns

def onLine {α : Type} (act : Act (Line H) α) : Act (Link H d r) α := fun link => do
  let (a, line) ← act link.line
  pure (a, { link with line })

def order (order : Order) : Act (Link H d r) Unit := onLine (Line.order order)

def readClock : Act (Link H d r) Micros := onLine Line.readClock

def now : Act (Link H d r) Micros := do
  pure (← get).line.now

def note (time : Micros) (event : Event) : Act (Link H d r) Unit :=
  modify fun link => { link with line := link.line.note time event }

def noteNow (event : Event) : Act (Link H d r) Unit := do
  note (← now) event

def getEngine : Act (Link H d r) Engine := do
  pure (← get).engine

def getTransmitter : Act (Link H d r) Transmitter := do
  pure (← get).engine.transmitter

def modifyEngine (f : Engine → Engine) : Act (Link H d r) Unit :=
  modify fun link => { link with cell := { link.cell with value := f link.cell.value } }

def setReceiver (receiver : Receiver) : Act (Link H d r) Unit :=
  modifyEngine fun e => { e with receiver }

def setTransmitter (transmitter : Transmitter) : Act (Link H d r) Unit :=
  modifyEngine fun e => { e with transmitter }

def modifyTransmitter (f : Transmitter → Transmitter) : Act (Link H d r) Unit :=
  modifyEngine fun e => { e with transmitter := f e.transmitter }

/-- Use the engine, to the exclusion of every other use. -/
def critical {α : Type} (act : Act (Link H d r) α) : Act (Link H d r) α := do
  let entered ← (← get).cell.enter
  modify fun link => { link with cell := entered }
  let a ← act
  modify fun link => { link with cell := link.cell.leave }
  pure a

/-- Look at the engine, to the exclusion of every use that may change it. -/
def observe {α : Type} (act : Act (Link H d r) α) : Act (Link H d r) α := do
  let entered ← (← get).cell.share
  modify fun link => { link with cell := entered }
  let a ← act
  modify fun link => { link with cell := link.cell.unshare }
  pure a

end Link

end Dmx512
