import Dmx512.Reception.Receiver

/-!
# Receiving DMX slots

A DMX frame ends with its last slot, or early, once no slot has come for the
spacing of the last two slots and a guard time; `deadline` is that instant. It
is checked when a timeout is served and when the next break arrives.
-/

namespace Dmx512

open Standard

namespace Receiver

/-- End the DMX frame with the slots that have arrived. -/
def publishDmx (r : Receiver) : Checked (Receiver × Option Frame) := do
  match ← r.dmxBuffer.front r.index with
  | [] => throw .overflow
  | startCode :: slots =>
    let frame : DmxFrame :=
      { startCode, slots, slotToSlot := r.slotSpacing, breakToBreak := r.breakToBreak }
    let counters := { r.counters with slotsInPacket := UInt16.ofNat slots.length }
    pure ({ r with state := .idle, deadline := none, counters }, some (.dmx frame))

/-- Serve a DMX slot: the last one ends the frame, any other sets the instant
at which the frame ends without a further slot. -/
def onSlot (r : Receiver) (byte : UInt8) (now : Micros) : Checked (Receiver × Option Frame) := do
  let dmxBuffer ← r.dmxBuffer.put r.index byte
  let slotSpacing := max (elapsed now r.slotTime) spacingFloor
  let counters := { r.counters with slotToSlot := slotSpacing }
  let r := { r with dmxBuffer, index := r.index + 1, slotTime := now, slotSpacing, counters }
  if r.index = dmxCapacity then
    r.publishDmx
  else
    pure ({ r with deadline := some (now + slotSpacing + timeoutGuard) }, none)

/-- Whether the DMX frame under construction has ended at `now`. -/
def overdue (r : Receiver) (now : Micros) : Bool :=
  match r.state, r.deadline with
  | .dmxData, some deadline => isDue now deadline
  | _, _ => false

/-- Serve a timeout: end an overdue DMX frame. A timeout that finds none is stale. -/
def onTimeout (r : Receiver) (now : Micros) : Checked (Receiver × Option Frame) :=
  if r.overdue now then r.publishDmx else pure (r, none)

/-- Serve a break: end an overdue DMX frame, drop any other partial frame. -/
def onBreak (r : Receiver) (now : Micros) : Checked (Receiver × Option Frame) := do
  let (r, frame) ← r.onTimeout now
  pure ({ r with state := .lineBreak, deadline := none, breakTime := now }, frame)

end Receiver

end Dmx512
