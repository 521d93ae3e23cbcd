import Dmx512.Proofs.Rdm.Discovery
import Dmx512.Proofs.Rdm.Message

/-!
# Responses that collide

Where two responders answer at once, the wire carries what the bytes of both have in common. The
encoding of bytes takes common bits to common bits, and so does the spelling of a sum, so what is
read is laid out as a response: it encodes what the identifiers have in common, with what the two
sums have in common. Only if that is the sum of what is encoded does the collision go unnoticed.
-/

namespace Dmx512

open Standard

/-- What two identifiers have in common. -/
def Uid.common (first second : Uid) : Uid := first.zipWith (· &&& ·) second

namespace Discovery

/-- What the wire carries where two answer at once: the bits that both send. -/
def overlap (first second : List UInt8) : List UInt8 := first.zipWith (· &&& ·) second

def encodedSum (uid : Uid) : UInt16 := checksum (encodeBytes uid.toList)

@[simp] theorem overlap_self (bytes : List UInt8) : overlap bytes bytes = bytes := by
  simp [overlap]

@[simp] theorem overlap_cons (byte byte' : UInt8) (rest rest' : List UInt8) :
    overlap (byte :: rest) (byte' :: rest') = (byte &&& byte') :: overlap rest rest' := rfl

theorem overlap_append {front front' : List UInt8} (length : front.length = front'.length)
    (back back' : List UInt8) :
    overlap (front ++ back) (front' ++ back') = overlap front front' ++ overlap back back' :=
  List.zipWith_append length

theorem overlap_toList (first second : Uid) :
    overlap first.toList second.toList = (first.common second).toList :=
  Vector.toList_zipWith.symm

/-- Bits that are added to both of two bytes are added to what they have in common. -/
theorem or_and_or (first second mask : UInt8) :
    (first ||| mask) &&& (second ||| mask) = (first &&& second) ||| mask := by
  rw [← UInt8.toBitVec_inj]
  ext i bound
  simp [Bool.or_and_distrib_right]

/-- What encodings have in common encodes what is encoded in both. -/
theorem overlap_encodeBytes (first second : List UInt8) :
    overlap (encodeBytes first) (encodeBytes second) = encodeBytes (overlap first second) := by
  induction first generalizing second with
  | nil => rfl
  | cons byte rest ih =>
      cases second with
      | nil => rfl
      | cons byte' rest' =>
          rw [encodeBytes_cons, encodeBytes_cons, overlap_cons, overlap_cons, overlap_cons,
            encodeBytes_cons, or_and_or, or_and_or, ih]

/-- The bytes that spell what two words have in common are what the bytes of both have in common. -/
theorem toBigEndian_and (first second : UInt16) :
    toBigEndian (first &&& second) = overlap (toBigEndian first) (toBigEndian second) := by
  rw [toBigEndian, UInt16.shiftRight_and, UInt16.toUInt8_and, UInt16.toUInt8_and]
  rfl

/-- What is read of two responses is laid out as one. -/
theorem overlap_encode (first second : Uid) :
    overlap (encode first) (encode second) =
      List.replicate preambleMax preambleByte ++ delimiterByte ::
        (encodeBytes (first.common second).toList ++
          encodeBytes (toBigEndian (encodedSum first &&& encodedSum second))) := by
  have identifiers : (encodeBytes first.toList).length = (encodeBytes second.toList).length := by
    rw [length_encodeBytes_uid, length_encodeBytes_uid]
  rw [encode_eq, encode_eq, overlap_append rfl, overlap_self, ← overlap_toList,
    ← overlap_encodeBytes, toBigEndian_and, ← overlap_encodeBytes, ← overlap_append identifiers]
  rfl

theorem decode_overlap_encode (first second : Uid) :
    decode (overlap (encode first) (encode second)) =
      if encodedSum first &&& encodedSum second = encodedSum (first.common second) then
        .ok (first.common second)
      else .error .wrongChecksum := by
  rw [overlap_encode, decode_preamble, if_pos (Nat.le_refl _),
    decodeBody_append (length_encodeBytes_uid _) (length_encodeBytes _) (decodeBytes_encodeBytes _),
    decodeBytes_encodeBytes]
  simp only [toBigEndian_inj]
  rfl

/-- What is read of a collision. Where two responders answer at once, what is read decodes exactly
if what their sums have in common is the sum of what their identifiers have in common, and then it
decodes to what the identifiers have in common. Otherwise its sum is wrong, and it is never
malformed. -/
theorem decodes_collision (first second : Uid) :
    (∀ uid, decode (overlap (encode first) (encode second)) = .ok uid ↔
      encodedSum first &&& encodedSum second = encodedSum (first.common second) ∧
        uid = first.common second) ∧
    (decode (overlap (encode first) (encode second)) = .error .wrongChecksum ↔
      encodedSum first &&& encodedSum second ≠ encodedSum (first.common second)) ∧
    decode (overlap (encode first) (encode second)) ≠ .error .malformedResponse := by
  rw [decode_overlap_encode]
  split
  · rename_i sums
    exact ⟨fun uid => by simp [sums, eq_comm], by simp [sums], nofun⟩
  · rename_i differ
    exact ⟨fun uid => by simp [differ], by simp [differ], nofun⟩

/-- A collision that goes unnoticed: two responders are read as a third one. -/
example : decode (overlap (encode #v[0, 0, 0, 0, 0, 1]) (encode #v[0, 0, 0, 0, 0, 4])) =
    .ok #v[0, 0, 0, 0, 0, 0] := by
  decide

end Discovery

end Dmx512
