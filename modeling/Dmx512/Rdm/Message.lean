import Dmx512.Refusal
import Dmx512.Fault
import Dmx512.Standard

/-!
# RDM messages

A message starts with two fixed codes, declares its own length and carries the
identifiers of its destination and its source and a transaction number. On the
wire its checksum follows, the 16-bit sum of its bytes, high byte first.

`validate` accepts exactly the well-formed messages and names the first defect
of any other; `verify` does the same for a message with its checksum.
-/

namespace Dmx512

open Standard

/-- A 48-bit unique identifier: manufacturer, then device. -/
abbrev Uid := Vector UInt8 uidSize

def Uid.ofList? (bytes : List UInt8) : Option Uid :=
  if h : bytes.length = uidSize then some ⟨bytes.toArray, h⟩ else none

/-- The 16-bit sum of all bytes. -/
def checksum (bytes : List UInt8) : UInt16 :=
  bytes.foldl (fun sum byte => sum + byte.toUInt16) 0

/-- The word with the high byte `high` and the low byte `low`. -/
def bigEndian (high low : UInt8) : UInt16 := high.toUInt16 * 256 + low.toUInt16

/-- The bytes of a word, high byte first. -/
def toBigEndian (word : UInt16) : List UInt8 := [(word >>> 8).toUInt8, word.toUInt8]

namespace Message

/-- The checksum of a well-formed message, or its first defect: length, codes,
declared length. -/
def validate (message : List UInt8) : Except MessageError UInt16 :=
  if message.length < messageMin then
    .error .tooShort
  else if message.length > messageMax then
    .error .tooLong
  else if message[0]? ≠ some rdmStartCode ∨ message[1]? ≠ some rdmSubStartCode then
    .error .wrongStartCode
  else if message[lengthOffset]?.map UInt8.toNat ≠ some message.length then
    .error .wrongLength
  else
    .ok (checksum message)

/-- Stamp a transaction number into a message. The message is left as it was
where it is not well-formed. -/
def prepare (message : List UInt8) (transaction : UInt8) :
    Except MessageError UInt16 × List UInt8 :=
  match validate message with
  | .error defect => (.error defect, message)
  | .ok _ =>
    let stamped := message.set transactionOffset transaction
    (.ok (checksum stamped), stamped)

/-- The message followed by its checksum, which together fit a frame buffer. -/
def withChecksum (message : List UInt8) (sum : UInt16) : Checked (List UInt8) :=
  if message.length + 2 ≤ rdmCapacity then .ok (message ++ toBigEndian sum)
  else .error .outOfBounds

/-- Whether bytes are a well-formed message followed by its checksum, or their
first defect. -/
def verify (bytes : List UInt8) : Except MessageError Unit :=
  if bytes.length < 2 then
    .error .tooShort
  else
    match validate (bytes.take (bytes.length - 2)), bytes.drop (bytes.length - 2) with
    | .error defect, _ => .error defect
    | .ok expected, [high, low] =>
      if bigEndian high low ≠ expected then .error .wrongChecksum else .ok ()
    | .ok _, _ => .error .wrongChecksum

/-- The identifier at a position, where the message reaches that far. -/
def uidAt? (message : List UInt8) (offset : Nat) : Option Uid :=
  Uid.ofList? ((message.drop offset).take uidSize)

def destination? (message : List UInt8) : Option Uid := uidAt? message destinationOffset

def source? (message : List UInt8) : Option Uid := uidAt? message sourceOffset

def transaction? (message : List UInt8) : Option UInt8 := message[transactionOffset]?

end Message

end Dmx512
