import Dmx512.Standard

/-!
# Received frames

A DMX frame is a start code with up to 512 slots and the timing measured while
they arrived. An RDM frame is the bytes of one message with its checksum, or of
one discovery response; its first byte tells which.
-/

namespace Dmx512

open Standard

structure DmxFrame where
  /-- The byte behind the break. -/
  startCode : UInt8 := 0
  slots : List UInt8 := []
  /-- The spacing of the last two slots. -/
  slotToSlot : Micros := 0
  /-- The time since the break before, where that started DMX data too; else 0. -/
  breakToBreak : Micros := 0
  deriving DecidableEq, Repr, Inhabited

namespace DmxFrame

def data (frame : DmxFrame) : List UInt8 := frame.startCode :: frame.slots

/-- The number of bytes, start code included. -/
def length (frame : DmxFrame) : Nat := frame.slots.length + 1

@[simp] theorem length_data (frame : DmxFrame) : frame.data.length = frame.length := rfl

end DmxFrame

/-- One received message or discovery response, checksum included. -/
structure RdmFrame where
  data : List UInt8 := []
  deriving DecidableEq, Repr, Inhabited

namespace RdmFrame

inductive Kind where
  | message
  | discoveryResponse
  deriving DecidableEq, Repr

/-- The kind is that of the first byte: a preamble starts a discovery response. -/
def kind (frame : RdmFrame) : Kind :=
  if frame.data.head? = some preambleByte then .discoveryResponse else .message

/-- The message without its checksum, where the frame holds one. -/
def message? (frame : RdmFrame) : Option (List UInt8) :=
  match frame.kind with
  | .message =>
    if 2 ≤ frame.data.length then some (frame.data.take (frame.data.length - 2)) else none
  | .discoveryResponse => none

end RdmFrame

inductive Frame where
  | dmx (frame : DmxFrame)
  | rdm (frame : RdmFrame)
  deriving DecidableEq, Repr

namespace Frame

def dmx? : Frame → Option DmxFrame
  | .dmx frame => some frame
  | .rdm _ => none

def rdm? : Frame → Option RdmFrame
  | .dmx _ => none
  | .rdm frame => some frame

end Frame

end Dmx512
