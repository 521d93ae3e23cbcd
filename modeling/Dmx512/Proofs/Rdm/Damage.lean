import Dmx512.Proofs.Rdm.Layout

/-!
# A damaged discovery response

No change of one byte makes a response decode to another identifier. How long a response is
tells where its delimiter is, so what happens to the preamble or to the delimiter shows. Another
byte in the encoded identifier moves the sum. A byte of the encoded sum may change without its
pair standing for another byte; then the response decodes as it did, and else the sum is wrong.
-/

namespace Dmx512.Discovery

open Standard

namespace Layout

variable {layout other : Layout} {i : Nat} {value : UInt8}

/-- The preamble and the delimiter. -/
def head (layout : Layout) : List UInt8 :=
  List.replicate layout.preamble preambleByte ++ [delimiterByte]

@[simp] theorem length_head (layout : Layout) : layout.head.length = layout.preamble + 1 := by
  rw [head, List.length_append, List.length_replicate, List.length_singleton]

theorem length_encoded (layout : Layout) : layout.encoded.toList.length = encodedUidSize :=
  Vector.length_toList

theorem bytes_eq (layout : Layout) :
    layout.bytes = layout.head ++ (layout.encoded.toList ++ layout.sum.toList) :=
  List.append_assoc _ _ _

theorem length_bytes (layout : Layout) :
    layout.bytes.length = layout.preamble + 1 + (encodedUidSize + encodedSumSize) := by
  rw [bytes_eq, List.length_append, length_head, List.length_append, length_encoded,
    Vector.length_toList]

/-- A byte is in the head, in the encoded identifier or in the encoded sum. -/
theorem exists_position (layout : Layout) (inside : i < layout.bytes.length) :
    i ≤ layout.preamble ∨ (∃ j < encodedUidSize, i = layout.preamble + 1 + j) ∨
      ∃ j < encodedSumSize, i = layout.preamble + 1 + encodedUidSize + j := by
  rw [length_bytes] at inside
  by_cases head : i ≤ layout.preamble
  · exact .inl head
  by_cases identifier : i < layout.preamble + 1 + encodedUidSize
  · exact .inr (.inl ⟨i - (layout.preamble + 1), by omega, by omega⟩)
  · exact .inr (.inr ⟨i - (layout.preamble + 1 + encodedUidSize), by omega, by omega⟩)

/-- Of equally many bytes that are laid out as responses, the heads are the same. -/
theorem getElem?_bytes_congr (length : other.bytes.length = layout.bytes.length)
    (early : i ≤ layout.preamble) : other.bytes[i]? = layout.bytes[i]? := by
  have preamble : other.preamble = layout.preamble := by
    rw [length_bytes, length_bytes] at length
    omega
  have heads : other.head = layout.head := by rw [head, head, preamble]
  have inside : i < layout.head.length := by
    rw [length_head]
    omega
  rw [bytes_eq, bytes_eq, heads, List.getElem?_append_left inside,
    List.getElem?_append_left inside]

/-- With another byte in its head, a response is not laid out as one of its length. -/
theorem decode_set_head (early : i ≤ layout.preamble) (differs : layout.bytes[i]? ≠ some value) :
    decode (layout.bytes.set i value) = .error .malformedResponse := by
  have inside : i < layout.bytes.length := by
    rw [length_bytes]
    omega
  by_contra laid
  obtain ⟨other, damaged⟩ := exists_layout laid
  have length : other.bytes.length = layout.bytes.length := by rw [← damaged, List.length_set]
  have kept := getElem?_bytes_congr length early
  rw [← damaged, List.getElem?_set_self inside] at kept
  exact differs kept.symm

section Behind

variable (layout) (value) {j : Nat}

theorem bytes_set_encoded (inside : j < encodedUidSize) :
    layout.bytes.set (layout.preamble + 1 + j) value =
      { layout with encoded := layout.encoded.set j value inside : Layout }.bytes := by
  rw [bytes_eq, bytes_eq, List.set_append_right _ _ (by rw [length_head]; omega), length_head,
    Nat.add_sub_cancel_left, List.set_append_left _ _ (by rwa [length_encoded]),
    Vector.toList_set]
  rfl

theorem bytes_set_sum (inside : j < encodedSumSize) :
    layout.bytes.set (layout.preamble + 1 + encodedUidSize + j) value =
      { layout with sum := layout.sum.set j value inside : Layout }.bytes := by
  rw [bytes_eq, bytes_eq, List.set_append_right _ _ (by rw [length_head]; omega), length_head,
    Nat.add_assoc, Nat.add_sub_cancel_left,
    List.set_append_right _ _ (by rw [length_encoded]; omega), length_encoded,
    Nat.add_sub_cancel_left, Vector.toList_set]
  rfl

end Behind

theorem getElem?_bytes_encoded (layout : Layout) {j : Nat} (inside : j < encodedUidSize) :
    layout.bytes[layout.preamble + 1 + j]? = layout.encoded.toList[j]? := by
  rw [bytes_eq, List.getElem?_append_right (by rw [length_head]; omega), length_head,
    Nat.add_sub_cancel_left, List.getElem?_append_left (by rwa [length_encoded])]

/-- Another byte in the encoded identifier moves its sum away from the one that is encoded. -/
theorem decode_set_encoded (agrees : layout.Agrees) {j : Nat} (inside : j < encodedUidSize)
    (differs : layout.bytes[layout.preamble + 1 + j]? ≠ some value) :
    decode (layout.bytes.set (layout.preamble + 1 + j) value) = .error .wrongChecksum := by
  have within : j < layout.encoded.toList.length := by rwa [length_encoded]
  rw [layout.getElem?_bytes_encoded inside, List.getElem?_eq_getElem within] at differs
  rw [bytes_set_encoded layout value inside, decode_bytes, if_neg]
  intro agrees'
  have sums : checksum (layout.encoded.set j value inside).toList =
      checksum layout.encoded.toList := UInt16.toNat_inj.mp (agrees'.trans agrees.symm)
  rw [Vector.toList_set] at sums
  exact checksum_set_ne within (fun same => differs (congrArg some same.symm)) sums

/-- Another byte in the encoded sum leaves the identifier alone, and shows if its pair stands
for another byte. -/
theorem decode_set_sum (agrees : layout.Agrees) {j : Nat} (inside : j < encodedSumSize) :
    decode (layout.bytes.set (layout.preamble + 1 + encodedUidSize + j) value) =
      if decodeBytes (layout.sum.toList.set j value) = decodeBytes layout.sum.toList then
        .ok layout.uid
      else .error .wrongChecksum := by
  rw [agrees_iff] at agrees
  rw [bytes_set_sum layout value inside, decode_bytes]
  simp only [agrees_iff, Vector.toList_set, agrees]
  rfl

/-- What the wire leaves of the response of `uid` whose first bytes are lost. -/
def ofUid (uid : Uid) (lost : Nat) : Layout where
  preamble := preambleMax - lost
  encoded := ⟨(encodeBytes uid.toList).toArray, length_encodeBytes_uid uid⟩
  sum := ⟨(encodeBytes (toBigEndian (checksum (encodeBytes uid.toList)))).toArray,
    length_encodeBytes _⟩
  short := Nat.sub_le _ _

theorem bytes_ofUid (uid : Uid) {lost : Nat} (few : lost ≤ preambleMax) :
    (ofUid uid lost).bytes = (encode uid).drop lost := by
  rw [drop_encode uid few, bytes_eq]
  exact List.append_assoc _ _ _

theorem decodes_ofUid (uid : Uid) {lost : Nat} (few : lost ≤ preambleMax) :
    (ofUid uid lost).Agrees ∧ (ofUid uid lost).uid = uid := by
  have decoded := decode_drop_encode uid few
  rw [← bytes_ofUid uid few, decode_bytes] at decoded
  split at decoded
  · rename_i agrees
    exact ⟨agrees, Except.ok.inj decoded⟩
  · contradiction

end Layout

/-- Where the encoded sum of a response begins. -/
abbrev sumOffset : Nat := preambleMax + 1 + encodedUidSize

/-- The defect as which damage to a response shows, by its position in the whole response. -/
def damageAt (position : Nat) : MessageError :=
  if position ≤ preambleMax then .malformedResponse else .wrongChecksum

theorem damageAt_of_le {position : Nat} (head : position ≤ preambleMax) :
    damageAt position = .malformedResponse := if_pos head

theorem damageAt_of_lt {position : Nat} (behind : preambleMax < position) :
    damageAt position = .wrongChecksum := if_neg (Nat.not_le_of_lt behind)

/-- Damage to a response is hidden: it is in the encoded sum, and the pairs of the sum stand for
the same two bytes as before. -/
def Hides (uid : Uid) (position : Nat) (value : UInt8) : Prop :=
  sumOffset ≤ position ∧
    decodeBytes (((encode uid).set position value).drop sumOffset) =
      decodeBytes ((encode uid).drop sumOffset)

instance (uid : Uid) (position : Nat) (value : UInt8) : Decidable (Hides uid position value) :=
  inferInstanceAs (Decidable (_ ∧ _))

theorem drop_encode_sum (uid : Uid) (lost : Nat) :
    (encode uid).drop sumOffset = (Layout.ofUid uid lost).sum.toList := by
  have head : (List.replicate preambleMax preambleByte ++ [delimiterByte] ++
      encodeBytes uid.toList).length = sumOffset := by
    rw [List.length_append, length_encodeBytes_uid]
    rfl
  exact List.drop_left' head

theorem hides_iff {uid : Uid} (lost : Nat) {j : Nat} {value : UInt8} :
    Hides uid (sumOffset + j) value ↔
      decodeBytes ((Layout.ofUid uid lost).sum.toList.set j value) =
        decodeBytes (Layout.ofUid uid lost).sum.toList := by
  rw [Hides, List.drop_set, if_neg (by omega), Nat.add_sub_cancel_left, drop_encode_sum uid lost]
  exact and_iff_right (Nat.le_add_right _ _)

theorem not_hides {uid : Uid} {position : Nat} {value : UInt8} (early : position < sumOffset) :
    ¬ Hides uid position value := fun hides => Nat.not_le_of_lt early hides.1

/-- A damaged byte misleads nobody. Whatever part of the preamble is lost, whichever one of the
other bytes of a response is changed, and whatever it becomes: either the damage is hidden, and the
response decodes to the identifier of its responder, or the response does not decode. -/
theorem decode_damaged (uid : Uid) {lost : Nat} (few : lost ≤ preambleMax) {i : Nat}
    (inside : i < ((encode uid).drop lost).length) {value : UInt8}
    (differs : value ≠ ((encode uid).drop lost)[i]) :
    decode (((encode uid).drop lost).set i value) =
      if Hides uid (lost + i) value then .ok uid else .error (damageAt (lost + i)) := by
  obtain ⟨agrees, same⟩ := Layout.decodes_ofUid uid few
  have whole : lost + (Layout.ofUid uid lost).preamble = preambleMax := Nat.add_sub_cancel' few
  have offset : sumOffset = preambleMax + 1 + encodedUidSize := rfl
  have differs : ((encode uid).drop lost)[i]? ≠ some value := by
    rw [List.getElem?_eq_getElem inside]
    exact fun same => differs (Option.some_inj.mp same).symm
  rw [← Layout.bytes_ofUid uid few] at inside differs ⊢
  rcases (Layout.ofUid uid lost).exists_position inside with
    head | ⟨j, identifier, rfl⟩ | ⟨j, sum, rfl⟩
  · rw [Layout.decode_set_head head differs, if_neg (not_hides (by omega)),
      damageAt_of_le (by omega)]
  · rw [Layout.decode_set_encoded agrees identifier differs, if_neg (not_hides (by omega)),
      damageAt_of_lt (by omega)]
  · have position : lost + ((Layout.ofUid uid lost).preamble + 1 + encodedUidSize + j) =
        sumOffset + j := by omega
    rw [Layout.decode_set_sum agrees sum, position, damageAt_of_lt (by omega), same]
    simp only [hides_iff lost]

/-- Two preamble bytes are lost. Of a pair of the encoded sum, the first byte loses a bit that the
second one does not have, or one that it has; or the delimiter stands in the preamble. -/
theorem decode_damaged_hidden :
    (encode #v[0x12, 0x34, 0x00, 0x00, 0x00, 0x01]).drop 2 = [0xFE, 0xFE, 0xFE, 0xFE, 0xFE, 0xAA,
      0xBA, 0x57, 0xBE, 0x75, 0xAA, 0x55, 0xAA, 0x55, 0xAA, 0x55, 0xAB, 0x55,
      0xAE, 0x57, 0xEB, 0x55] ∧
    decode (((encode #v[0x12, 0x34, 0x00, 0x00, 0x00, 0x01]).drop 2).set 20 0x6B) =
      .ok #v[0x12, 0x34, 0x00, 0x00, 0x00, 0x01] ∧
    decode (((encode #v[0x12, 0x34, 0x00, 0x00, 0x00, 0x01]).drop 2).set 20 0xAB) =
      .error .wrongChecksum ∧
    decode (((encode #v[0x12, 0x34, 0x00, 0x00, 0x00, 0x01]).drop 2).set 3 0xAA) =
      .error .malformedResponse := by
  refine ⟨by decide, ?_, ?_, ?_⟩
  · exact (decode_damaged _ (by decide) (by decide) (by decide)).trans (if_pos (by decide))
  · exact (decode_damaged _ (by decide) (by decide) (by decide)).trans (if_neg (by decide))
  · exact (decode_damaged _ (by decide) (by decide) (by decide)).trans (if_neg (by decide))

end Dmx512.Discovery
