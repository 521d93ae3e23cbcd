import Dmx512.Reception.Receiver

/-!
# Receiving RDM frames

A message ends two checksum bytes after its declared length, and is published
if the sums agree. A discovery response starts without a break; after its
preamble, which ends with the delimiter or is full, come an identifier and a
checksum of fixed length, and it is published whatever they say. A frame that
outgrows the buffer is dropped.
-/

namespace Dmx512

open Standard

namespace Receiver

/-- Add a byte to the RDM frame, if there is room for one. -/
def append? (r : Receiver) (byte : UInt8) : Option Receiver :=
  if h : r.index < rdmCapacity then
    some { r with rdmBuffer := r.rdmBuffer.set r.index byte h, index := r.index + 1 }
  else
    none

/-- End the RDM frame with the bytes that have arrived. -/
def publishRdm (r : Receiver) (now : Micros) : Checked (Receiver × Option Frame) := do
  let data ← r.rdmBuffer.front r.index
  let counters := { r.counters with rdmReceiveEnd := now }
  pure ({ r with counters }, some (.rdm { data }))

/-- The number of message bytes that the third byte declares. -/
def declaredLength (r : Receiver) : Nat := r.rdmBuffer[lengthOffset].toNat

/-- Serve a byte of a message; the declared number of bytes completes it. -/
def onMessageByte (r : Receiver) (byte : UInt8) : Receiver :=
  match r.append? byte with
  | none => { r with state := .idle }
  | some r =>
    let r := { r with checksum := r.checksum + byte.toUInt16 }
    if r.index > lengthOffset ∧ r.index = r.declaredLength then
      { r with state := .checksumHigh }
    else
      r

def onChecksumHigh (r : Receiver) (byte : UInt8) : Receiver :=
  match r.append? byte with
  | none => { r with state := .idle }
  | some r => { r with checksum := r.checksum - (byte.toUInt16 <<< 8), state := .checksumLow }

/-- Serve the low byte of a checksum: the message is published if the sums
agree and the byte behind its start code is right. -/
def onChecksumLow (r : Receiver) (byte : UInt8) (now : Micros) :
    Checked (Receiver × Option Frame) :=
  match r.append? byte with
  | none => pure ({ r with state := .idle }, none)
  | some r =>
    let r := { r with checksum := r.checksum - byte.toUInt16, state := .idle }
    if r.checksum = 0 ∧ r.rdmBuffer[1] = rdmSubStartCode then
      r.publishRdm now
    else
      pure (r, none)

/-- Serve a byte outside a packet: a preamble byte starts a discovery response. -/
def onIdleByte (r : Receiver) (byte : UInt8) : Checked Receiver :=
  if byte = preambleByte then do
    let rdmBuffer ← r.rdmBuffer.put 0 byte
    pure { r with state := .discoveryPreamble, rdmBuffer, index := 1 }
  else
    pure r

/-- Serve a byte of a discovery preamble: the delimiter, or a full preamble
without one, starts the identifier. -/
def onPreamble (r : Receiver) (byte : UInt8) : Receiver :=
  match r.append? byte with
  | none => { r with state := .idle }
  | some r =>
    if byte = delimiterByte ∨ r.index > preambleMax then
      { r with state := .discoveryUid, sectionIndex := 0 }
    else
      r

def onEncodedUid (r : Receiver) (byte : UInt8) : Receiver :=
  match r.append? byte with
  | none => { r with state := .idle }
  | some r =>
    if r.sectionIndex + 1 = encodedUidSize then
      { r with state := .discoveryChecksum, sectionIndex := 0 }
    else
      { r with sectionIndex := r.sectionIndex + 1 }

/-- Serve a byte of an encoded checksum; the last one completes the response. -/
def onEncodedSum (r : Receiver) (byte : UInt8) (now : Micros) :
    Checked (Receiver × Option Frame) :=
  match r.append? byte with
  | none => pure ({ r with state := .idle }, none)
  | some r =>
    let r := { r with sectionIndex := r.sectionIndex + 1 }
    if r.sectionIndex = encodedSumSize then
      { r with state := .idle }.publishRdm now
    else
      pure (r, none)

end Receiver

end Dmx512
