import Dmx512.Rdm.Discovery

/-!
# Discovery responses decode

Both bytes of a pair hold the byte that they stand for, and between them no other
bit, so that their conjunction is that byte. What a responder sends therefore
decodes to its identifier.
-/

namespace Dmx512.Discovery

open Standard

/-- The bits that a pair adds to its byte are not in both of its halves. -/
theorem and_encodeByte (byte : UInt8) : (byte ||| 0xAA) &&& (byte ||| 0x55) = byte := by
  rw [← UInt8.toBitVec_inj]
  ext i bound
  have apart : ((0xAA#8)[i] && (0x55#8)[i]) = false := by
    rw [← BitVec.getElem_and]
    exact BitVec.getElem_zero bound
  simp [← Bool.or_and_distrib_left, apart]

theorem encodeBytes_cons (byte : UInt8) (rest : List UInt8) :
    encodeBytes (byte :: rest) = (byte ||| 0xAA) :: (byte ||| 0x55) :: encodeBytes rest := rfl

theorem decodeBytes_encodeBytes (bytes : List UInt8) : decodeBytes (encodeBytes bytes) = bytes := by
  induction bytes with
  | nil => rfl
  | cons byte rest ih => rw [encodeBytes_cons, decodeBytes, and_encodeByte, ih]

theorem length_encodeBytes (bytes : List UInt8) :
    (encodeBytes bytes).length = 2 * bytes.length := by
  induction bytes with
  | nil => rfl
  | cons byte rest ih =>
      rw [encodeBytes_cons, List.length_cons, List.length_cons, ih, List.length_cons]
      omega

/-- The encoded identifier and its checksum behind the delimiter of a response. -/
def body (uid : Uid) : List UInt8 :=
  encodeBytes uid.toList ++ encodeBytes (toBigEndian (checksum (encodeBytes uid.toList)))

theorem encode_eq (uid : Uid) :
    encode uid = List.replicate preambleMax preambleByte ++ delimiterByte :: body uid := by
  simp [encode, body]

theorem length_encodeBytes_uid (uid : Uid) :
    (encodeBytes uid.toList).length = encodedUidSize := by
  rw [length_encodeBytes, Vector.length_toList]
  rfl

theorem length_body (uid : Uid) : (body uid).length = encodedUidSize + encodedSumSize := by
  rw [body, List.length_append, length_encodeBytes_uid, length_encodeBytes]
  rfl

/-- A body decodes to the identifier that its first part encodes, if its second part encodes
the sum of the first. -/
theorem decodeBody_append {encoded sum : List UInt8} {uid : Uid}
    (length : encoded.length = encodedUidSize) (rest : sum.length = encodedSumSize)
    (spelled : decodeBytes encoded = uid.toList) : decodeBody (encoded ++ sum) =
      if decodeBytes sum = toBigEndian (checksum encoded) then .ok uid
      else .error .wrongChecksum := by
  have whole : (encoded ++ sum).length = encodedUidSize + encodedSumSize := by
    rw [List.length_append, length, rest]
  have front : (encoded ++ sum).take encodedUidSize = encoded := List.take_left' length
  have back : (encoded ++ sum).drop encodedUidSize = sum := List.drop_left' length
  have same : (decodeBytes encoded).toArray = uid.toArray := by
    rw [spelled]
    exact Array.toArray_toList
  rw [decodeBody, dif_pos whole]
  simp only [front, back]
  rw [ite_not]
  exact ite_congr rfl (fun _ => congrArg Except.ok (Vector.toArray_inj.mp same)) fun _ => rfl

theorem decodeBody_body (uid : Uid) : decodeBody (body uid) = .ok uid := by
  rw [body, decodeBody_append (length_encodeBytes_uid uid) (length_encodeBytes _)
    (decodeBytes_encodeBytes _), decodeBytes_encodeBytes, if_pos rfl]

/-- A preamble that is not too long is skipped, with the delimiter behind it. -/
theorem decode_preamble (count : Nat) (rest : List UInt8) :
    decode (List.replicate count preambleByte ++ delimiterByte :: rest) =
      if count ≤ preambleMax then decodeBody rest else .error .malformedResponse := by
  have preamble : (List.replicate count preambleByte ++ delimiterByte :: rest).takeWhile
      (· == preambleByte) = List.replicate count preambleByte := by
    rw [List.takeWhile_append_of_pos (by simp)]
    exact List.append_nil _
  have delimiter : (List.replicate count preambleByte ++ delimiterByte :: rest)[count]? =
      some delimiterByte := by simp
  have behind : (List.replicate count preambleByte ++ delimiterByte :: rest).drop (count + 1) =
      rest := by
    rw [← List.drop_drop, List.drop_left' List.length_replicate]
    rfl
  rw [decode, preamble, List.length_replicate, behind, delimiter]
  by_cases short : count ≤ preambleMax
  · rw [if_neg (by simpa using short), if_pos short]
  · rw [if_pos (.inl (Nat.lt_of_not_le short)), if_neg short]

/-- What the wire leaves of a response whose first bytes are lost. -/
theorem drop_encode (uid : Uid) {lost : Nat} (few : lost ≤ preambleMax) :
    (encode uid).drop lost =
      List.replicate (preambleMax - lost) preambleByte ++ delimiterByte :: body uid := by
  rw [encode_eq, List.drop_append_of_le_length (by rw [List.length_replicate]; exact few),
    List.drop_replicate]

/-- What a responder sends decodes to its identifier, however much of the preamble is lost. -/
theorem decode_drop_encode (uid : Uid) {lost : Nat} (few : lost ≤ preambleMax) :
    decode ((encode uid).drop lost) = .ok uid := by
  rw [drop_encode uid few, decode_preamble, if_pos (Nat.sub_le _ _), decodeBody_body]

/-- What a responder sends decodes to its identifier. -/
theorem decode_encode (uid : Uid) : decode (encode uid) = .ok uid :=
  decode_drop_encode uid (Nat.zero_le _)

end Dmx512.Discovery
