import Dmx512.Clock.Wait
import Dmx512.Link.Reception
import Dmx512.Link.Transmission

/-!
# Sequencers, interrupts and waits of a link

Each direction has a sequencer that is started and stopped with it. Interrupts
drive the running one. The foreground reads the clock by `foregroundClock`,
where the hardware may have interrupts served first; within a critical section
`readClock` is used, where it may not. So an interrupt never meets an engine in
use.
-/

namespace Dmx512.Link

open Standard

variable {H : Type} [Hardware H] {d r : Nat}

def startSequencer : Direction → Act (Link H d r) Unit
  | .input => do
    modifyEngine fun e => { e with receiver := e.receiver.reset }
    order .clearReceive
    order (.allowReceive true)
  | .output => do
    modifyTransmitter Transmitter.start
    setPace (some ((← readClock) + startDelay))

def stopSequencer : Direction → Act (Link H d r) Unit
  | .input => do
    order (.allowReceive false)
    modifyEngine fun e => { e with receiver := e.receiver.reset }
    syncWatchdog
  | .output => do
    order (.allowTransmit false)
    order (.setBreak false)
    modifyTransmitter Transmitter.stop
    setPace none

def start : Act (Link H d r) Unit := do
  startSequencer (← getEngine).direction
  modifyEngine fun e => { e with running := true }

def halt : Act (Link H d r) Unit := do
  stopSequencer (← getEngine).direction
  modifyEngine fun e => { e with running := false }

def serve : Interrupt → Act (Link H d r) Unit
  | .uart => critical do
    drainReceive serviceLimit
    continueFrame
    syncWatchdog
  | .transmitTimer => critical pace
  | .receiveTimeout => critical timeOut

def serveRaised : List Interrupt → Act (Link H d r) Unit
  | [] => pure ()
  | interrupt :: rest => do
    if ← onLine (Line.raised interrupt) then
      serve interrupt
      serveRaised rest
    else
      serveRaised rest

/-- Read the clock in the foreground, after the interrupts raised there. -/
def foregroundClock : Act (Link H d r) Micros := do
  serveRaised (Hardware.polled (← get).line.hardware)
  readClock

def waitFor (micros : Micros) : Act (Link H d r) Unit :=
  Wait.forMicros foregroundClock micros (Hardware.patience H)

def waitWhile (busy : Act (Link H d r) Bool) (timeout : Micros) : Act (Link H d r) Bool :=
  Wait.whileBusy foregroundClock busy timeout (Hardware.patience H)

end Dmx512.Link

namespace Dmx512

/-- What may come in between two steps of the foreground that read no clock. -/
inductive Interruption (H : Type) where
  | serve (interrupt : Interrupt)
  /-- A change of the hardware from outside. -/
  | disturb (change : H → H)
  /-- A frame of any content is published. -/
  | publish (time : Micros) (frame : Frame)

namespace Link

variable {H : Type} [Hardware H] {d r : Nat}

def interrupt : Interruption H → Act (Link H d r) Unit
  | .serve interrupt => serve interrupt
  | .disturb change => onLine <| modify fun line =>
    { line with hardware := change line.hardware }
  | .publish time frame => publish time (some frame)

/-- Let something come in between, and tell the frames that are published thereby. -/
def undergo (interruption : Interruption H) : Act (Link H d r) (List Frame) := do
  let before := (← get).line.journal.publications.length
  interrupt interruption
  pure ((← get).line.journal.publications.drop before)

end Link

end Dmx512
