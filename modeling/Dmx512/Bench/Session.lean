import Dmx512.Bench
import Dmx512.Node.Run

/-!
# Sessions on the bench

A session puts a link on a bench and carries out steps: operations of the link,
changes of the bench, and two compound steps that come up again and again: a
packet arriving byte by byte, and an alarm firing at its deadline. A reply to a
step is its answer, the marks that it left on the hardware, and the node
after it.

Marks are the journal entries that concern the hardware, where bytes written
directly one after the other are one mark, and so are settings of the same
alarm.
-/

namespace Dmx512.Bench

/-- A trace that a step leaves on the hardware. -/
inductive Mark where
  | setBreak (time : Micros) (asserted : Bool)
  | allowReceive (time : Micros) (enabled : Bool)
  | allowTransmit (time : Micros) (enabled : Bool)
  | clearReceive (time : Micros)
  /-- The direction pin was to take a level, and whether it did. -/
  | pin (time : Micros) (high driven : Bool)
  /-- Bytes were written; the time is that of the first. -/
  | write (time : Micros) (bytes : List UInt8)
  /-- An alarm was set a number of times; time and deadline are the last. -/
  | setAlarm (time : Micros) (alarm : Alarm) (deadline : Micros) (count : Nat)
  | cancelAlarm (time : Micros) (alarm : Alarm)
  deriving DecidableEq, Repr

def Mark.ofEntry? (entry : Entry) : Option Mark :=
  match entry.event with
  | .order (.setBreak asserted) => some (.setBreak entry.time asserted)
  | .order (.allowReceive enabled) => some (.allowReceive entry.time enabled)
  | .order (.allowTransmit enabled) => some (.allowTransmit entry.time enabled)
  | .order .clearReceive => some (.clearReceive entry.time)
  | .order (.write byte) => some (.write entry.time [byte])
  | .order (.setAlarm alarm deadline) => some (.setAlarm entry.time alarm deadline 1)
  | .order (.cancelAlarm alarm) => some (.cancelAlarm entry.time alarm)
  | .pin high driven => some (.pin entry.time high driven)
  | .clockRead | .sampled _ | .heard _ | .published _ | .queued _ | .turned _
  | .transmitAlarm _ | .receiveAlarm => none

/-- One mark for two adjacent ones, if they go together. -/
def Mark.join? : Mark → Mark → Option Mark
  | .write time bytes, .write _ more => some (.write time (bytes ++ more))
  | .setAlarm _ alarm _ count, .setAlarm time other deadline more =>
    if alarm = other then some (.setAlarm time alarm deadline (count + more)) else none
  | _, _ => none

/-- Put a mark in front of marks, joined with the first where they go together. -/
def Mark.cons (mark : Mark) : List Mark → List Mark
  | [] => [mark]
  | next :: rest =>
    match mark.join? next with
    | some joined => joined :: rest
    | none => mark :: next :: rest

def marks (journal : Journal) : List Mark :=
  (journal.reverse.filterMap Mark.ofEntry?).foldr Mark.cons []

inductive Step where
  | perform (operation : Operation)
  | setClock (clock : Micros)
  | advance (us : Micros)
  | setStep (step : Micros)
  | fitQueue (capacity : Option Nat) (shiftTime : Micros)
  | drain (count : Nat)
  | listPinFailures (failures : List Bool)
  | receive (bytes : List UInt8) (status : UInt32)
  | receiveBreak
  /-- Let a packet arrive, an interrupt after its break, if it has one, and
  after each byte. -/
  | packet (bytes : List UInt8) (gap : Micros) (withBreak : Bool)
  /-- Let an alarm fire at its deadline, up to a number of times. -/
  | fire (alarm : Alarm) (times : Nat)
  deriving DecidableEq, Repr

inductive Response where
  | answer (answer : Answer)
  /-- The alarm was not set after it had fired so often. -/
  | unset (fired : Nat)
  deriving DecidableEq, Repr

variable {d r : Nat}

def change (f : Bench → Bench) : Act (Node Bench d r) Unit := modify (Node.disturb f)

def interrupt (interrupt : Interrupt) : Act (Node Bench d r) Unit := do
  let _ ← Node.perform (.interrupt interrupt)

/-- Let bytes arrive, each after a gap and followed by an interrupt. -/
def arrive (gap : Micros) : List UInt8 → Act (Node Bench d r) Unit
  | [] => pure ()
  | byte :: rest => do
    change (receive [byte] 0x01 ∘ advance gap)
    interrupt .uart
    arrive gap rest

def alarmInterrupt : Alarm → Interrupt
  | .transmit => .transmitTimer
  | .receiveTimeout => .receiveTimeout

/-- Let an alarm fire up to `times` times; it has fired `fired` times already. -/
def fireFrom (alarm : Alarm) (fired : Nat) : Nat → Act (Node Bench d r) Response
  | 0 => pure (.answer .done)
  | times + 1 => do
    match (← get).link.line.hardware.alarm alarm with
    | none => pure (.unset fired)
    | some deadline =>
      change (setClock deadline)
      interrupt (alarmInterrupt alarm)
      fireFrom alarm (fired + 1) times

def exec : Step → Act (Node Bench d r) Response
  | .perform operation => do pure (.answer (← Node.perform operation))
  | .setClock clock => changed (setClock clock)
  | .advance us => changed (Bench.advance us)
  | .setStep step => changed (setStep step)
  | .fitQueue capacity shiftTime => changed (fitQueue capacity shiftTime)
  | .drain count => changed (Bench.drain count)
  | .listPinFailures failures => changed (listPinFailures failures)
  | .receive bytes status => changed (Bench.receive bytes status)
  | .receiveBreak => changed Bench.receiveBreak
  | .packet bytes gap withBreak => do
    if withBreak then
      change Bench.receiveBreak
      interrupt .uart
    arrive gap bytes
    pure (.answer .done)
  | .fire alarm times => fireFrom alarm 0 times
where
  /-- Change the bench, which is always done. -/
  changed (f : Bench → Bench) : Act (Node Bench d r) Response := do
    change f
    pure (.answer .done)

/-- What came of a step. -/
structure Reply (d r : Nat) where
  response : Response
  marks : List Mark
  node : Node Bench d r

def reply (s : Node Bench d r) (step : Step) : Checked (Reply d r) := do
  let (response, node) ← exec step s
  let journal := node.link.line.journal
  let fresh := journal.take (journal.length - s.link.line.journal.length)
  pure { response, marks := marks fresh, node }

/-- Carry out steps and tell what came of each; at the end the station, if
there is one, is detached. The second part is the marks of that. -/
def session (s : Node Bench d r) : List Step → Checked (List (Reply d r) × List Mark)
  | [] => do pure ([], (← reply s (.perform .detach)).marks)
  | step :: rest => do
    let first ← reply s step
    let (replies, ending) ← session first.node rest
    pure (first :: replies, ending)

end Dmx512.Bench
