import Dmx512.Line.Hardware

/-!
# The bench

A bench is simulated hardware to run a link on. Its clock moves by a fixed step
at every reading; its receive queue is filled, and its transmit queue drained,
by hand or, for the latter, one byte per shift time; writes of the direction
pin succeed or fail as listed. Interrupts are delivered to a waiting foreground
where `delivers` says so, and then by the state of queues, masks and alarms.
-/

namespace Dmx512

structure TransmitQueue where
  /-- How many bytes it holds at most, if that is limited. -/
  capacity : Option Nat := none
  /-- How long a byte takes to leave; 0 for never. -/
  shiftTime : Micros := 0
  level : Nat := 0
  /-- Since when the foremost byte is leaving. -/
  since : Micros := 0
  deriving DecidableEq, Repr

namespace TransmitQueue

/-- Let the bytes leave whose shift time is over at `now`; the queue holds
`level` bytes. -/
def shiftOut (q : TransmitQueue) (now : Micros) : Nat → TransmitQueue
  | 0 => { q with level := 0 }
  | level + 1 =>
    if q.shiftTime > 0 ∧ elapsed now q.since ≥ q.shiftTime then
      { q with since := q.since + q.shiftTime }.shiftOut now level
    else
      { q with level := level + 1 }

def sync (q : TransmitQueue) (now : Micros) : TransmitQueue := q.shiftOut now q.level

def ready (q : TransmitQueue) : Bool := q.capacity.all fun capacity => q.level < capacity

/-- Whether the queue is empty. A queue without limit always counts as empty. -/
def idle (q : TransmitQueue) : Bool := q.capacity.isNone || q.level == 0

/-- Put a byte into the queue. A queue without limit passes it on at once. -/
def put (q : TransmitQueue) (now : Micros) : TransmitQueue :=
  let q := q.sync now
  if q.capacity.isNone then q
  else { q with since := if q.level = 0 then now else q.since, level := q.level + 1 }

end TransmitQueue

structure Received where
  status : UInt32
  byte : UInt8
  deriving DecidableEq, Repr

/-- Simulated hardware. -/
structure Bench where
  /-- What the next reading of the clock returns. -/
  clock : Micros := 0
  /-- How far a reading moves the clock. -/
  step : Micros := 0
  /-- Whether interrupts are delivered to a waiting foreground. -/
  delivers : Bool := false
  /-- The receive queue, foremost entry first. -/
  received : List Received := []
  transmitQueue : TransmitQueue := {}
  /-- Whether the next writes of the direction pin fail; later ones succeed. -/
  pinFailures : List Bool := []
  receiveAllowed : Bool := false
  transmitAllowed : Bool := false
  transmitAlarm : Option Micros := none
  receiveAlarm : Option Micros := none
  deriving DecidableEq, Repr

namespace Bench

def alarm (b : Bench) : Alarm → Option Micros
  | .transmit => b.transmitAlarm
  | .receiveTimeout => b.receiveAlarm

def setAlarm (b : Bench) (alarm : Alarm) (deadline : Option Micros) : Bench :=
  match alarm with
  | .transmit => { b with transmitAlarm := deadline }
  | .receiveTimeout => { b with receiveAlarm := deadline }

def sync (b : Bench) : Bench := { b with transmitQueue := b.transmitQueue.sync b.clock }

def receiveBits (b : Bench) : UInt32 :=
  match b.received with
  | [] => 0
  | entry :: _ => entry.status &&& 0x1F

def statusBits (b : Bench) : UInt32 :=
  b.receiveBits ||| (if b.transmitQueue.ready then 0x20 else 0) |||
    (if b.transmitQueue.idle then 0x40 else 0)

/-- Carry out an order. Breaks need no state. -/
def obey (order : Order) (b : Bench) : Bench :=
  match order with
  | .setBreak _ => b
  | .allowReceive enabled => { b with receiveAllowed := enabled }
  | .allowTransmit enabled => { b with transmitAllowed := enabled }
  | .clearReceive => { b with received := [] }
  | .write _ => { b with transmitQueue := b.transmitQueue.put b.clock }
  | .setAlarm alarm deadline => b.setAlarm alarm (some deadline)
  | .cancelAlarm alarm => b.setAlarm alarm none

def alarmDue (b : Bench) (alarm : Alarm) : Bool := (b.alarm alarm).any (isDue b.clock)

/-- Whether an interrupt is served at a reading of the foreground. -/
def raised (interrupt : Interrupt) (b : Bench) : Bool × Bench :=
  match interrupt with
  | .uart =>
    let b := b.sync
    (b.receiveAllowed && !b.received.isEmpty || b.transmitAllowed && b.transmitQueue.ready, b)
  | .transmitTimer => (b.alarmDue .transmit, b)
  | .receiveTimeout => (b.alarmDue .receiveTimeout, b)

instance : Hardware Bench where
  clock b := b.clock
  tick b := { b with clock := b.clock + b.step }
  sample b :=
    let b := b.sync
    (.ofBits b.statusBits, b)
  take b :=
    match b.received with
    | [] => (0, b)
    | entry :: rest => (entry.byte, { b with received := rest })
  obey := obey
  drive _ b :=
    match b.pinFailures with
    | [] => (true, b)
    | failure :: rest => (!failure, { b with pinFailures := rest })
  polled b := if b.delivers then [.uart, .transmitTimer, .receiveTimeout] else []
  raised := raised
  patience := 0x100000000 + 1

def setClock (clock : Micros) (b : Bench) : Bench := { b with clock }

def advance (us : Micros) (b : Bench) : Bench := { b with clock := b.clock + us }

def setStep (step : Micros) (b : Bench) : Bench := { b with step }

/-- Take an empty transmit queue of another make. -/
def fitQueue (capacity : Option Nat) (shiftTime : Micros) (b : Bench) : Bench :=
  { b with transmitQueue := { b.transmitQueue with capacity, shiftTime, level := 0 } }

def drain (count : Nat) (b : Bench) : Bench :=
  let b := b.sync
  { b with transmitQueue := { b.transmitQueue with level := b.transmitQueue.level - count } }

def listPinFailures (failures : List Bool) (b : Bench) : Bench :=
  { b with pinFailures := failures }

/-- Queue received bytes, each with the same status bits. -/
def receive (bytes : List UInt8) (status : UInt32) (b : Bench) : Bench :=
  { b with received := b.received ++ bytes.map fun byte => { status, byte } }

/-- The queue entry of a break: a null byte with a framing error. -/
def breakEntry : Received := { status := 0x19, byte := 0 }

def receiveBreak (b : Bench) : Bench := { b with received := b.received ++ [breakEntry] }

end Bench

end Dmx512
