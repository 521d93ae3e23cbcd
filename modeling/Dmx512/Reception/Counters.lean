import Dmx512.Clock

/-!
# What a receiver counts

A receiver counts the packets that begin and measures their timing. Counts
wrap; a measurement stands until the next one.
-/

namespace Dmx512

/-- What a receiver has counted and measured since power-up. Counts wrap. -/
structure ReceiveCounters where
  /-- DMX start codes received. -/
  dmxPackets : UInt32 := 0
  /-- RDM start codes received. -/
  rdmPackets : UInt32 := 0
  /-- The latest interval between the breaks of two DMX packets. -/
  breakToBreak : Micros := 0
  slotToSlot : Micros := 0
  slotsInPacket : UInt16 := 0
  /-- When the latest RDM frame ended. -/
  rdmReceiveEnd : Micros := 0
  deriving DecidableEq, Repr, Inhabited

end Dmx512
