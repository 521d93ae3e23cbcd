import Dmx512.Frame.Reader
import Dmx512.Station.Basic

/-!
# Received frames and statistics of a station

A station takes received frames from the stores of its link, oldest first, or
looks at the next one. It keeps the frame last read, and apart from it the DMX
frame last reported as a change. Statistics are read through its sampler.

A store is read in steps, and interrupts may come in between any two of them.
The operations of a station are those without one; `Shelf.read` is told what
comes in between.
-/

namespace Dmx512

/-- What comes next while a store is read. -/
inductive Turn (H : Type) where
  | step
  | meanwhile (interruption : Interruption H)

/-- A store of a link, with the buffer of the station that its frames are copied into. -/
structure Shelf (H : Type) (d r : Nat) (α : Type) (k : Nat) where
  /-- The frames that go into the store. -/
  kind? : Frame → Option α
  store : Link H d r → Frame.Store α k
  withStore : Frame.Store α k → Link H d r → Link H d r
  buffer : Station → α
  withBuffer : α → Station → Station
  store_withStore (contents : Frame.Store α k) (link : Link H d r) :
    store (withStore contents link) = contents
  buffer_withBuffer (frame : α) (station : Station) : buffer (withBuffer frame station) = frame
  withBuffer_withBuffer (frame other : α) (station : Station) :
    withBuffer frame (withBuffer other station) = withBuffer frame station
  withBuffer_buffer (station : Station) : withBuffer (buffer station) station = station

namespace Shelf

variable {H : Type} {d r k : Nat} {α : Type}

def dmx : Shelf H d r DmxFrame d where
  kind? := Frame.dmx?
  store := Link.dmxStore
  withStore dmxStore link := { link with dmxStore }
  buffer := Station.dmxFrame
  withBuffer dmxFrame station := { station with dmxFrame }
  store_withStore _ _ := rfl
  buffer_withBuffer _ _ := rfl
  withBuffer_withBuffer _ _ _ := rfl
  withBuffer_buffer _ := rfl

def rdm : Shelf H d r RdmFrame r where
  kind? := Frame.rdm?
  store := Link.rdmStore
  withStore rdmStore link := { link with rdmStore }
  buffer := Station.rdmFrame
  withBuffer rdmFrame station := { station with rdmFrame }
  store_withStore _ _ := rfl
  buffer_withBuffer _ _ := rfl
  withBuffer_withBuffer _ _ _ := rfl
  withBuffer_buffer _ := rfl

def desk (shelf : Shelf H d r α k) (s : Attached H d r) : Frame.Desk α k where
  store := shelf.store s.link
  buffer := shelf.buffer s.station

def place (shelf : Shelf H d r α k) (desk : Frame.Desk α k) (s : Attached H d r) :
    Attached H d r where
  station := shelf.withBuffer desk.buffer s.station
  link := shelf.withStore desk.store s.link

@[simp] theorem desk_place (shelf : Shelf H d r α k) (desk : Frame.Desk α k) (s : Attached H d r) :
    shelf.desk (shelf.place desk s) = desk := by
  rw [Shelf.desk, place, shelf.store_withStore, shelf.buffer_withBuffer]

variable (shelf : Shelf H d r α k) (copier : Frame.Copier α) (task : Frame.Task)

def work {β : Type} (act : Frame.Desk α k → β × Frame.Desk α k) : Act (Attached H d r) β := fun s =>
  let (answer, desk) := act (shelf.desk s)
  pure (answer, shelf.place desk s)

def readAtOnce : Act (Attached H d r) (Option α) := do
  let (_, answer) ← shelf.work (Frame.Reader.finish .atOnce task {})
  pure answer

variable [Hardware H]

def turn (reader : Frame.Reader α) : Turn H → Act (Attached H d r) (Frame.Reader α)
  | .step => shelf.work (reader.step copier task)
  | .meanwhile interruption => do
    let frames ← Attached.onLink (Link.undergo interruption)
    pure (reader.notice (frames.filterMap shelf.kind?))

def turns : List (Turn H) → Frame.Reader α → Act (Attached H d r) (Frame.Reader α)
  | [], reader => pure reader
  | turn :: rest, reader => do
    let reader ← shelf.turn copier task reader turn
    turns rest reader

/-- Read a store, at first in turns with what comes in between and then alone to the end. -/
def read (interrupted : List (Turn H)) : Act (Attached H d r) (Frame.Reader α × Option α) := do
  let reader ← shelf.turns copier task interrupted {}
  shelf.work (reader.finish copier task)

end Shelf

namespace Attached

variable {H : Type} [Hardware H] {d r : Nat}

def takeDmx : Act (Attached H d r) (Option DmxFrame) := Shelf.dmx.readAtOnce .take

def peekDmx : Act (Attached H d r) (Option DmxFrame) := Shelf.dmx.readAtOnce .look

/-- Answer a DMX frame that was taken where its data differs from the one answered last. -/
def changed? : Option DmxFrame → Act (Attached H d r) (Option DmxFrame)
  | none => pure none
  | some frame => do
    if (← get).station.lastChanged.map DmxFrame.data = some frame.data then
      pure none
    else
      update fun station => { station with lastChanged := some frame }
      pure (some frame)

def takeChangedDmx : Act (Attached H d r) (Option DmxFrame) := do changed? (← takeDmx)

def takeRdm : Act (Attached H d r) (Option RdmFrame) := Shelf.rdm.readAtOnce .take

def peekRdm : Act (Attached H d r) (Option RdmFrame) := Shelf.rdm.readAtOnce .look

def flush : Act (Attached H d r) Unit := do
  let _ ← Shelf.dmx.readAtOnce .flush
  let _ ← Shelf.rdm.readAtOnce .flush

def sample : Act (Attached H d r) Counters := do
  let now ← onLink Link.foregroundClock
  let s ← get
  let view ← s.station.view.sample s.link.counters now
  update fun station => { station with view }
  pure s.link.counters

def statistics : Act (Attached H d r) Snapshot := do
  let counters ← sample
  pure ((← get).station.view.snapshot counters)

/-- DMX packets per second over the last closed window. -/
def updatesPerSecond : Act (Attached H d r) UInt32 := do
  let _ ← sample
  pure (← get).station.view.rate

def resetCounters : Act (Attached H d r) Unit := do
  let counters := (← get).link.counters
  update fun station => { station with view := station.view.reset counters }

end Dmx512.Attached
