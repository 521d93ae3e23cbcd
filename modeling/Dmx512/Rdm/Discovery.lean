import Dmx512.Rdm.Message

/-!
# Discovery responses

Responders answer a discovery request together, without a break and without
knowing of each other. A response is a preamble, a delimiter, the identifier
and a checksum over the encoded identifier; each byte of the last two is sent
as a pair of bytes whose conjunction is that byte, so that overlapping answers
read as the conjunction of what was sent.
-/

namespace Dmx512.Discovery

open Standard

/-- A byte as the pair of bytes that is sent for it. -/
def encodeByte (byte : UInt8) : List UInt8 := [byte ||| 0xAA, byte ||| 0x55]

def encodeBytes (bytes : List UInt8) : List UInt8 := bytes.flatMap encodeByte

/-- The bytes that pairs stand for; a single byte at the end stands for none. -/
def decodeBytes : List UInt8 → List UInt8
  | first :: second :: rest => (first &&& second) :: decodeBytes rest
  | _ => []

theorem length_decodeBytes : ∀ bytes : List UInt8,
    (decodeBytes bytes).length = bytes.length / 2
  | [] => rfl
  | [_] => by simp [decodeBytes]
  | _ :: _ :: rest => by
    simp only [decodeBytes, List.length_cons, length_decodeBytes rest]
    omega

def encode (uid : Uid) : List UInt8 :=
  let body := encodeBytes uid.toList
  List.replicate preambleMax preambleByte ++ [delimiterByte] ++ body ++
    encodeBytes (toBigEndian (checksum body))

/-- The identifier in an encoded body of sixteen bytes, if the checksum is
that of the encoded identifier. -/
def decodeBody (body : List UInt8) : Except MessageError Uid :=
  if h : body.length = encodedUidSize + encodedSumSize then
    let encoded := body.take encodedUidSize
    if decodeBytes (body.drop encodedUidSize) ≠ toBigEndian (checksum encoded) then
      .error .wrongChecksum
    else
      .ok ⟨(decodeBytes encoded).toArray, by
        simp only [List.size_toArray, length_decodeBytes, encoded, List.length_take, h]
        rfl⟩
  else
    .error .malformedResponse

/-- The identifier in a response. Up to seven preamble bytes may precede the
delimiter, since the wire may lose some of them. -/
def decode (bytes : List UInt8) : Except MessageError Uid :=
  let preamble := (bytes.takeWhile (· == preambleByte)).length
  if preamble > preambleMax ∨ bytes[preamble]? ≠ some delimiterByte then
    .error .malformedResponse
  else
    decodeBody (bytes.drop (preamble + 1))

end Dmx512.Discovery
