/-!
# Line status

The seven flags that a serial interface reports about its line, and their
positions in a status register of the common 16550 layout.
-/

namespace Dmx512

/-- What a serial interface reports about its line and its queues. -/
structure Line.Status where
  dataReady : Bool := false
  /-- A received byte was lost. -/
  overrun : Bool := false
  parityError : Bool := false
  framingError : Bool := false
  /-- The line was held low for longer than a character. -/
  breakDetected : Bool := false
  txReady : Bool := false
  /-- The transmit queue and the shift register are empty. -/
  txIdle : Bool := false
  deriving DecidableEq, Repr

namespace Line.Status

/-- The flags of a status register; bits of no flag are ignored. -/
def ofBits (bits : UInt32) : Status where
  dataReady := bits &&& 0x01 != 0
  overrun := bits &&& 0x02 != 0
  parityError := bits &&& 0x04 != 0
  framingError := bits &&& 0x08 != 0
  breakDetected := bits &&& 0x10 != 0
  txReady := bits &&& 0x20 != 0
  txIdle := bits &&& 0x40 != 0

/-- The status register that shows these flags and no other bit. -/
def toBits (s : Status) : UInt32 :=
  (if s.dataReady then 0x01 else 0) ||| (if s.overrun then 0x02 else 0) |||
  (if s.parityError then 0x04 else 0) ||| (if s.framingError then 0x08 else 0) |||
  (if s.breakDetected then 0x10 else 0) ||| (if s.txReady then 0x20 else 0) |||
  (if s.txIdle then 0x40 else 0)

def hasReceiveError (s : Status) : Bool := s.overrun || s.parityError || s.framingError

end Line.Status

end Dmx512
