import Mathlib.Data.List.TakeWhile
import Dmx512.Proofs.Rdm.Discovery
import Dmx512.Proofs.Rdm.Message

/-!
# How a discovery response is laid out

Up to seven preamble bytes, the delimiter, twelve bytes that encode an identifier and four
that encode a sum: `Layout` is these parts, whatever the last two say. Bytes so laid out decode
to the identifier that is encoded if the sum agrees with it, and all other bytes are malformed.
-/

namespace Dmx512.Discovery

open Standard

/-- What pairs stand for, at each position. -/
theorem getElem?_decodeBytes : ∀ (bytes : List UInt8) (i : Nat) (inside : 2 * i + 1 < bytes.length),
    (decodeBytes bytes)[i]? = some (bytes[2 * i] &&& bytes[2 * i + 1])
  | first :: second :: _, 0, _ => rfl
  | _ :: _ :: rest, i + 1, inside => by
    have later : 2 * i + 1 < rest.length := by
      simp only [List.length_cons] at inside
      omega
    rw [decodeBytes, List.getElem?_cons_succ, getElem?_decodeBytes rest i later]
    rfl

theorem decodeBytes_toList {n : Nat} (pairs : Vector UInt8 (2 * n)) :
    decodeBytes pairs.toList =
      List.ofFn fun i : Fin n => pairs[2 * i.val] &&& pairs[2 * i.val + 1] := by
  have length : (decodeBytes pairs.toList).length = n := by
    rw [length_decodeBytes, Vector.length_toList]
    omega
  apply List.ext_getElem?
  intro i
  by_cases inside : i < n
  · rw [getElem?_decodeBytes _ i (by rw [Vector.length_toList]; omega)]
    simp [inside]
  · rw [List.getElem?_eq_none (by omega), List.getElem?_eq_none (by simpa using inside)]

structure Layout where
  /-- How many preamble bytes there are. -/
  preamble : Nat
  encoded : Vector UInt8 (2 * uidSize)
  sum : Vector UInt8 (2 * 2)
  short : preamble ≤ preambleMax

namespace Layout

variable (layout : Layout)

def bytes : List UInt8 :=
  List.replicate layout.preamble preambleByte ++ [delimiterByte] ++ layout.encoded.toList ++
    layout.sum.toList

/-- The identifier that is encoded: each pair stands for the bits that both its bytes have. -/
def uid : Uid :=
  Vector.ofFn fun i => layout.encoded[2 * i.val] &&& layout.encoded[2 * i.val + 1]

/-- The sum that is encoded is that of the encoded identifier. -/
def Agrees : Prop :=
  (checksum layout.encoded.toList).toNat =
    256 * (layout.sum[0] &&& layout.sum[1]).toNat + (layout.sum[2] &&& layout.sum[3]).toNat

instance : Decidable layout.Agrees := inferInstanceAs (Decidable (_ = _))

theorem decodeBytes_encoded : decodeBytes layout.encoded.toList = layout.uid.toList := by
  rw [decodeBytes_toList layout.encoded, uid, Vector.toList_ofFn]

theorem decodeBytes_sum : decodeBytes layout.sum.toList =
    [layout.sum[0] &&& layout.sum[1], layout.sum[2] &&& layout.sum[3]] := by
  rw [decodeBytes_toList layout.sum]
  rfl

theorem agrees_iff : layout.Agrees ↔
    decodeBytes layout.sum.toList = toBigEndian (checksum layout.encoded.toList) := by
  rw [decodeBytes_sum, eq_comm, toBigEndian_eq_iff, ← UInt16.toNat_inj, toNat_bigEndian, eq_comm,
    Agrees]

/-- Bytes that are laid out as a response decode if their sum agrees. -/
theorem decode_bytes : decode layout.bytes =
    if layout.Agrees then .ok layout.uid else .error .wrongChecksum := by
  have parts : layout.bytes = List.replicate layout.preamble preambleByte ++
      delimiterByte :: (layout.encoded.toList ++ layout.sum.toList) := by
    simp [bytes]
  rw [parts, decode_preamble, if_pos layout.short, decodeBody_append layout.encoded.length_toList
    layout.sum.length_toList layout.decodeBytes_encoded]
  simp only [agrees_iff]

end Layout

/-- Bytes that are not malformed have a delimiter behind a preamble that is not too long. -/
theorem exists_preamble {bytes : List UInt8} (laid : decode bytes ≠ .error .malformedResponse) :
    ∃ count rest, count ≤ preambleMax ∧
      bytes = List.replicate count preambleByte ++ delimiterByte :: rest := by
  rw [decode] at laid
  set preamble := bytes.takeWhile (· == preambleByte) with found
  split at laid
  · contradiction
  rename_i fits
  obtain ⟨short, delimiter⟩ := not_or.mp fits
  obtain ⟨inside, spelled⟩ := List.getElem?_eq_some_iff.mp (Decidable.not_not.mp delimiter)
  have same : preamble = List.replicate preamble.length preambleByte :=
    List.eq_replicate_of_mem fun byte mem => by simpa using List.mem_takeWhile_imp mem
  have front : bytes.take preamble.length = preamble :=
    (List.prefix_iff_eq_take.mp (List.takeWhile_prefix _)).symm
  have back : bytes.drop preamble.length =
      delimiterByte :: bytes.drop (preamble.length + 1) := by
    rw [List.drop_eq_getElem_cons inside, spelled]
  have whole := List.take_append_drop preamble.length bytes
  rw [front, back] at whole
  refine ⟨preamble.length, bytes.drop (preamble.length + 1), Nat.le_of_not_lt short, ?_⟩
  rw [← same]
  exact whole.symm

/-- Bytes that are not malformed are laid out as a response. -/
theorem exists_layout {bytes : List UInt8} (laid : decode bytes ≠ .error .malformedResponse) :
    ∃ layout : Layout, bytes = layout.bytes := by
  obtain ⟨count, rest, short, rfl⟩ := exists_preamble laid
  have length : rest.length = encodedUidSize + encodedSumSize := by
    by_contra other
    rw [decode_preamble, if_pos short, decodeBody, dif_neg other] at laid
    contradiction
  have first : (rest.take encodedUidSize).toArray.size = 2 * uidSize := by
    rw [List.size_toArray, List.length_take, length]
    rfl
  have second : (rest.drop encodedUidSize).toArray.size = 2 * 2 := by
    rw [List.size_toArray, List.length_drop, length]
    rfl
  refine ⟨⟨count, ⟨_, first⟩, ⟨_, second⟩, short⟩, ?_⟩
  simp [Layout.bytes]

/-- Exactly what is laid out as a response decodes. Bytes decode to an identifier if they are so
laid out, the encoded sum agrees, and each byte of the identifier is what its two encoded bytes
have in common; where the sum does not agree, it is found wrong, and bytes that are laid out in
another way are malformed. What a responder sends decodes to its identifier, however much of the
preamble is lost. -/
theorem decodes_layouts (bytes : List UInt8) (uid : Uid) :
    (decode bytes = .ok uid ↔
      ∃ layout : Layout, bytes = layout.bytes ∧ layout.Agrees ∧ layout.uid = uid) ∧
    (decode bytes = .error .wrongChecksum ↔
      ∃ layout : Layout, bytes = layout.bytes ∧ ¬ layout.Agrees) ∧
    (decode bytes = .error .malformedResponse ↔ ∀ layout : Layout, bytes ≠ layout.bytes) ∧
    ∀ lost ≤ preambleMax, decode ((encode uid).drop lost) = .ok uid := by
  refine ⟨?_, ?_, ?_, fun _ few => decode_drop_encode uid few⟩
  · constructor
    · intro decoded
      obtain ⟨layout, rfl⟩ := exists_layout (by rw [decoded]; nofun)
      rw [layout.decode_bytes] at decoded
      split at decoded
      · rename_i agrees
        exact ⟨layout, rfl, agrees, Except.ok.inj decoded⟩
      · contradiction
    · rintro ⟨layout, rfl, agrees, rfl⟩
      rw [layout.decode_bytes, if_pos agrees]
  · constructor
    · intro refused
      obtain ⟨layout, rfl⟩ := exists_layout (by rw [refused]; nofun)
      rw [layout.decode_bytes] at refused
      split at refused
      · contradiction
      · rename_i disagrees
        exact ⟨layout, rfl, disagrees⟩
    · rintro ⟨layout, rfl, disagrees⟩
      rw [layout.decode_bytes, if_neg disagrees]
  · constructor
    · rintro malformed layout rfl
      rw [layout.decode_bytes] at malformed
      split at malformed <;> contradiction
    · intro other
      by_contra laid
      obtain ⟨layout, same⟩ := exists_layout laid
      exact other layout same

/-- An identifier whose encoding has preamble bytes and delimiters in it. -/
theorem decodes_layouts_lost :
    (encode #v[0xFE, 0xAA, 0x00, 0xFF, 0xAA, 0xFE]).drop 5 = [0xFE, 0xFE, 0xAA, 0xFE, 0xFF, 0xAA,
      0xFF, 0xAA, 0x55, 0xFF, 0xFF, 0xAA, 0xFF, 0xFE, 0xFF, 0xAA, 0x5F, 0xEB, 0x5D] ∧
    decode ((encode #v[0xFE, 0xAA, 0x00, 0xFF, 0xAA, 0xFE]).drop 5) =
      .ok #v[0xFE, 0xAA, 0x00, 0xFF, 0xAA, 0xFE] := by
  obtain ⟨_, _, _, responses⟩ := decodes_layouts [] #v[0xFE, 0xAA, 0x00, 0xFF, 0xAA, 0xFE]
  exact ⟨by decide, responses 5 (by decide)⟩

end Dmx512.Discovery
