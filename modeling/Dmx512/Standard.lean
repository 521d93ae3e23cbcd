import Dmx512.Clock

/-!
# Numbers of the standards

Sizes, codes and times that the DMX512 (ANSI E1.11) and RDM (ANSI E1.20)
standards fix, and the bounds and defaults that this library adds to them. All
times are microseconds.
-/

namespace Dmx512.Standard

/-- The most data slots a DMX packet carries. -/
abbrev maxSlots : Nat := 512

/-- A start code and the most slots behind it. -/
abbrev dmxCapacity : Nat := 513

/-- The shortest message: a header without parameter data. -/
abbrev messageMin : Nat := 24

/-- The longest message that an 8-bit length can declare. -/
abbrev messageMax : Nat := 255

/-- The longest message and its checksum. -/
abbrev rdmCapacity : Nat := 257

abbrev uidSize : Nat := 6

/-- The most preamble bytes before the delimiter of a discovery response. -/
abbrev preambleMax : Nat := 7

/-- The bytes of an encoded identifier: each byte is sent twice. -/
abbrev encodedUidSize : Nat := 12

abbrev encodedSumSize : Nat := 4

/-- A discovery response with its whole preamble. -/
abbrev discoverySize : Nat := 24

abbrev dmxStartCode : UInt8 := 0x00

abbrev rdmStartCode : UInt8 := 0xCC

/-- The byte behind the start code of an RDM message. -/
abbrev rdmSubStartCode : UInt8 := 0x01

abbrev preambleByte : UInt8 := 0xFE

/-- The byte between the preamble and the identifier of a discovery response. -/
abbrev delimiterByte : UInt8 := 0xAA

abbrev lengthOffset : Nat := 2

abbrev destinationOffset : Nat := 3

abbrev sourceOffset : Nat := 9

abbrev transactionOffset : Nat := 15

/-- One slot on the wire: eleven bits at 250 kbit/s. -/
abbrev slotTime : Micros := 44

abbrev breakMin : Micros := 92

abbrev breakTypical : Micros := 176

abbrev breakMax : Micros := 1000000

abbrev markMin : Micros := 12

abbrev markMax : Micros := 1000000

/-- The shortest time from one break to the next. -/
abbrev periodFloor : Micros := 1204

abbrev defaultRate : Micros := 40

abbrev defaultPeriod : Micros := 25000

/-- From the start of a sequencer to its first alarm. -/
abbrev startDelay : Micros := 4

/-- Added to the minimum period where the requested one is shorter. -/
abbrev latencyMargin : Micros := 4

/-- Measured slot spacings count as no shorter than this. -/
abbrev spacingFloor : Micros := 44

/-- How long after a missing slot was due its frame ends. -/
abbrev timeoutGuard : Micros := 12

/-- The least length of a window over which packets are counted. -/
abbrev sampleWindow : Micros := 1000000

/-- The break before a message. -/
abbrev rdmBreak : Micros := 176

abbrev rdmMark : Micros := 68

abbrev responderSpacing : Micros := 176

/-- How long the interface may take to accept a byte or to drain. -/
abbrev rdmTimeout : Micros := 20000

abbrev dmxStoreDepth : Nat := 4

abbrev rdmStoreDepth : Nat := 8

/-- Added to two periods where a sequencer drains. -/
abbrev drainSlack : Nat := 1000

/-- The receive events that one interrupt serves at most. -/
abbrev serviceLimit : Nat := 64

end Dmx512.Standard
