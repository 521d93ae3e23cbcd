import Dmx512.Rdm.Message
import Dmx512.Station.Basic

/-!
# Operations

The public operations of a link and of the station attached to it, as data, and
what they answer.
-/

namespace Dmx512

/-- What the user of a link and its interrupts can ask of it. -/
inductive Operation where
  | attach (config : Config)
  | detach
  | interrupt (interrupt : Interrupt)
  | counters
  | setDirection (target : Direction) (enable : Bool)
  | setBreakTime (us : Micros)
  | setMarkTime (us : Micros)
  | setPeriod (us : Micros)
  | timing
  | config
  | direction
  /-- Queue a whole frame. -/
  | sendData (frame : List UInt8)
  /-- Queue slots behind the start code of dimmer data. -/
  | sendSlots (slots : List UInt8)
  | takeDmx
  | peekDmx
  /-- Take the oldest unread DMX frame, and answer it if its data changed. -/
  | takeChangedDmx
  | takeRdm
  | peekRdm
  | flush
  | statistics
  | updatesPerSecond
  | resetCounters
  | transaction
  /-- Send a message with the next transaction number. -/
  | sendMessage (message : List UInt8) (spacing : Micros)
  /-- Send a message as it is. -/
  | sendResponse (message : List UInt8)
  | sendDiscoveryResponse (uid : Uid)
  deriving DecidableEq, Repr

inductive Answer where
  | done
  | refused (refusal : Refusal)
  /-- It needs a station, and none is attached. -/
  | noStation
  | counters (counters : Counters)
  | timing (timing : Timing)
  | config (config : Config)
  | direction (direction : Direction) (running : Bool)
  | dmx (frame : Option DmxFrame)
  | rdm (frame : Option RdmFrame)
  | statistics (snapshot : Snapshot)
  | rate (perSecond : UInt32)
  | transaction (number : UInt8)
  deriving DecidableEq, Repr

end Dmx512
