import Dmx512.Proofs.Rdm.Message

/-!
# What the check of a message tells

A message that cannot be prepared is refused with its first defect. A packet passes its check
exactly if it is a well-formed message with its sum, as `prepare` makes them; and no change of
one byte of such a packet goes unnoticed: the two start codes and the declared length have one
right value each, and any other byte moves the sum or spells it.
-/

namespace Dmx512.Message

open Standard

variable {message : List UInt8} {defect : MessageError} {number : UInt8}

theorem uidAt?_set {offset : Nat} (before : offset + uidSize ≤ transactionOffset)
    (message : List UInt8) (number : UInt8) :
    uidAt? (message.set transactionOffset number) offset = uidAt? message offset := by
  rw [uidAt?, uidAt?, List.drop_set, if_neg (by omega), List.take_set_of_le (by omega)]

theorem uidAt?_append {offset : Nat} (inside : offset + uidSize ≤ message.length)
    (more : List UInt8) : uidAt? (message ++ more) offset = uidAt? message offset := by
  have behind : uidSize ≤ (message.drop offset).length := by
    rw [List.length_drop]
    omega
  rw [uidAt?, uidAt?, List.drop_append_of_le_length (by omega),
    List.take_append_of_le_length behind]

theorem isSome_uidAt? {offset : Nat} (inside : offset + uidSize ≤ message.length) :
    (uidAt? message offset).isSome = true := by
  have length : ((message.drop offset).take uidSize).length = uidSize := by
    rw [List.length_take, List.length_drop]
    omega
  rw [uidAt?, Uid.ofList?, dif_pos length]
  rfl

theorem validate_eq_error_iff : validate message = .error defect ↔
    firstDefect? message = some defect := by
  rw [validate_eq_firstDefect]
  cases firstDefect? message with
  | none => simp
  | some first => simp

/-- What passes the check of a packet, in full. -/
theorem verify_eq_ok_iff {bytes : List UInt8} : verify bytes = .ok () ↔
    ∃ message, messageMin ≤ message.length ∧ message.length ≤ messageMax ∧ Framed message ∧
      bytes = packet message := by
  constructor
  · intro valid
    obtain ⟨message, sum, checked, rfl⟩ := packet_of_verify valid
    obtain ⟨⟨long, short, first, second, declares⟩, _⟩ := validate_eq_ok_iff.mp checked
    exact ⟨message, long, short, ⟨first, second, declares⟩, rfl⟩
  · rintro ⟨message, long, short, framed, rfl⟩
    have checked := validate_eq_ok_iff.mpr
      ⟨⟨long, short, framed.startCode, framed.subStartCode, framed.declares⟩, rfl⟩
    rw [verify_packet, checked]
    rfl

theorem prepare_eq_error_iff {left : List UInt8} :
    prepare message number = (.error defect, left) ↔
      left = message ∧ validate message = .error defect := by
  cases checked : validate message with
  | ok sum => simp [prepare_of_valid checked]
  | error first => simp [prepare_of_defect checked, eq_comm, and_comm]

theorem of_prepare {sum : UInt16} {stamped : List UInt8}
    (prepared : prepare message number = (.ok sum, stamped)) :
    (∃ old, validate message = .ok old) ∧ stamped = message.set transactionOffset number ∧
      sum = checksum stamped := by
  cases checked : validate message with
  | ok old =>
      rw [prepare_of_valid checked] at prepared
      cases prepared
      exact ⟨⟨old, rfl⟩, rfl, rfl⟩
  | error first =>
      rw [prepare_of_defect checked] at prepared
      cases prepared

/-- Checking and preparing agree. Exactly the well-formed messages with their checksums pass the
check of a packet. A message that is prepared differs from what it was in its transaction number
only, and with the checksum that is answered it passes that check; the number and both
identifiers are found in it. What cannot be prepared is left as it was, and of its defects the
first is named, in the order of length, codes and declared length. -/
theorem prepared_verifies (bytes message : List UInt8) (number : UInt8) :
    (verify bytes = .ok () ↔
      ∃ content, messageMin ≤ content.length ∧ content.length ≤ messageMax ∧ Framed content ∧
        bytes = content ++ toBigEndian (checksum content)) ∧
    (∀ sum stamped, prepare message number = (.ok sum, stamped) →
      stamped.length = message.length ∧ stamped[transactionOffset]? = some number ∧
      (∀ i, i ≠ transactionOffset → stamped[i]? = message[i]?) ∧ sum = checksum stamped ∧
      verify (stamped ++ toBigEndian sum) = .ok () ∧
      transaction? (stamped ++ toBigEndian sum) = some number ∧
      ∃ destination source, destination? message = some destination ∧
        source? message = some source ∧
        destination? (stamped ++ toBigEndian sum) = some destination ∧
        source? (stamped ++ toBigEndian sum) = some source) ∧
    (∀ defect left, prepare message number = (.error defect, left) ↔
      left = message ∧ validate message = .error defect) ∧
    ∀ defect, validate message = .error defect ↔ firstDefect? message = some defect := by
  refine ⟨verify_eq_ok_iff, ?_, fun _ _ => prepare_eq_error_iff, fun _ => validate_eq_error_iff⟩
  intro sum stamped prepared
  obtain ⟨⟨old, valid⟩, rfl, rfl⟩ := of_prepare prepared
  obtain ⟨⟨long, _⟩, _⟩ := validate_eq_ok_iff.mp valid
  have inside : transactionOffset < message.length := Nat.lt_of_lt_of_le (by decide) long
  have stamp : (message.set transactionOffset number)[transactionOffset]? = some number :=
    List.getElem?_set_self inside
  have length : (message.set transactionOffset number).length = message.length := List.length_set
  have found (offset : Nat) (before : offset + uidSize ≤ transactionOffset)
      (more : List UInt8) : ∃ uid, uidAt? message offset = some uid ∧
        uidAt? (message.set transactionOffset number ++ more) offset = some uid := by
    have reaches : offset + uidSize ≤ message.length := by omega
    obtain ⟨uid, spelled⟩ := Option.isSome_iff_exists.mp (isSome_uidAt? reaches)
    refine ⟨uid, spelled, ?_⟩
    rw [uidAt?_append (by rw [length]; exact reaches), uidAt?_set before, spelled]
  obtain ⟨destination, named, kept⟩ := found destinationOffset (by decide) _
  obtain ⟨source, named', kept'⟩ := found sourceOffset (by decide) _
  refine ⟨length, stamp, fun i other => List.getElem?_set_ne other.symm, rfl, ?_, ?_,
    destination, source, named, named', kept, kept'⟩
  · have checked : verify (packet (message.set transactionOffset number)) = .ok () := by
      rw [verify_packet, validate_set valid]
      rfl
    exact checked
  · rw [transaction?, List.getElem?_append_left (by rw [length]; exact inside), stamp]

/-- A message without data, from one identifier to another. -/
def request : List UInt8 :=
  [0xCC, 0x01, 24, 0x12, 0x34, 0, 0, 0, 7, 0x7A, 0x70, 0, 0, 0, 1] ++ List.replicate 9 0

theorem prepared_verifies_request :
    prepare request 5 = (.ok 0x222, request.set transactionOffset 5) ∧
      verify (request.set transactionOffset 5 ++ toBigEndian 0x222) = .ok () ∧
      transaction? (request.set transactionOffset 5 ++ toBigEndian 0x222) = some 5 := by
  have prepared : prepare request 5 = (.ok 0x222, request.set transactionOffset 5) := by decide
  obtain ⟨_, succeeds, _⟩ := prepared_verifies [] request 5
  obtain ⟨_, _, _, _, checked, stamped, _⟩ := succeeds _ _ prepared
  exact ⟨prepared, checked, stamped⟩

/-- The defect as which a damaged byte of a packet shows, by its position. -/
def damageAt (i : Nat) : MessageError :=
  if i < lengthOffset then .wrongStartCode
  else if i = lengthOffset then .wrongLength
  else .wrongChecksum

theorem damageAt_of_lt {i : Nat} (behind : lengthOffset < i) : damageAt i = .wrongChecksum := by
  rw [damageAt, if_neg (Nat.not_lt_of_gt behind), if_neg (Nat.ne_of_gt behind)]

/-- Up to the declared length, the bytes of a message have one right value each. -/
theorem validate_damaged {sum : UInt16} (valid : validate message = .ok sum) {i : Nat}
    {value : UInt8} (early : i ≤ lengthOffset) (inside : i < message.length)
    (other : value ≠ message[i]) : validate (message.set i value) = .error (damageAt i) := by
  obtain ⟨⟨long, short, first, second, declares⟩, _⟩ := validate_eq_ok_iff.mp valid
  have there : (message.set i value)[i]? = some value := List.getElem?_set_self inside
  have kept {j : Nat} (apart : i ≠ j) : (message.set i value)[j]? = message[j]? :=
    List.getElem?_set_ne apart
  have changed {code : UInt8} (was : message[i]? = some code) :
      (message.set i value)[i]? ≠ some code := by
    rw [there, ← was, List.getElem?_eq_getElem inside]
    exact fun same => other (Option.some_inj.mp same)
  rw [validate, List.length_set, if_neg (Nat.not_lt_of_le long), if_neg (Nat.not_lt_of_le short)]
  have position : i = 0 ∨ i = 1 ∨ i = 2 := by
    simp only [lengthOffset] at early
    omega
  rcases position with rfl | rfl | rfl
  · rw [if_pos (.inl (changed first))]
    rfl
  · rw [if_pos (.inr (changed second))]
    rfl
  · have codes : ¬ ((message.set 2 value)[0]? ≠ some rdmStartCode ∨
        (message.set 2 value)[1]? ≠ some rdmSubStartCode) := by
      rw [kept (by decide), kept (by decide), first, second]
      simp
    have declared : (message.set 2 value)[lengthOffset]?.map UInt8.toNat ≠ some message.length := by
      rw [there, ← declares, List.getElem?_eq_getElem inside]
      exact fun same => other (UInt8.toNat_inj.mp (Option.some_inj.mp same))
    rw [if_neg codes, if_pos declared]
    rfl

/-- Two bytes that do not spell the sum of a message are refused behind it. -/
theorem verify_of_ne {sum : UInt16} {high low : UInt8} (valid : validate message = .ok sum)
    (other : bigEndian high low ≠ sum) :
    verify (message ++ [high, low]) = .error .wrongChecksum := by
  rw [verify_append, valid]
  exact if_neg other

/-- A changed byte of a message is noticed by the message or by its sum. -/
theorem verify_damaged {sum : UInt16} (valid : validate message = .ok sum) {i : Nat}
    {value : UInt8} (inside : i < message.length) (other : value ≠ message[i]) :
    verify (message.set i value ++ toBigEndian (checksum message)) = .error (damageAt i) := by
  by_cases behind : lengthOffset < i
  · rw [damageAt_of_lt behind, toBigEndian]
    refine verify_of_ne (validate_set_behind valid behind value) ?_
    rw [bigEndian_toBigEndian]
    exact (checksum_set_ne inside other).symm
  · rw [toBigEndian, verify_append, validate_damaged valid (Nat.le_of_not_lt behind) inside other]
    rfl

/-- A changed byte of a spelled sum spells another sum. -/
theorem spells_other {high low value : UInt8} {i : Nat} (inside : i < [high, low].length)
    (other : value ≠ [high, low][i]) :
    ∃ high' low', [high, low].set i value = [high', low'] ∧
      bigEndian high' low' ≠ bigEndian high low := by
  match i, inside with
  | 0, _ => exact ⟨value, low, rfl, fun same => other (bigEndian_inj.mp same).1⟩
  | 1, _ => exact ⟨high, value, rfl, fun same => other (bigEndian_inj.mp same).2⟩

/-- A damaged byte is noticed. Whichever one byte of a packet that passes its check is changed,
and whatever it becomes, the packet no longer passes: a start code or the declared length is
wrong, or the sum of the message no longer is the one behind it. -/
theorem detects_damage {bytes : List UInt8} (valid : verify bytes = .ok ()) {i : Nat}
    (inside : i < bytes.length) {value : UInt8} (other : value ≠ bytes[i]) :
    verify (bytes.set i value) = .error (damageAt i) := by
  obtain ⟨message, sum, checked, rfl⟩ := packet_of_verify valid
  by_cases content : i < message.length
  · rw [packet, List.set_append_left i value content]
    refine verify_damaged checked content ?_
    simpa only [packet, List.getElem_append_left content] using other
  · have behind : message.length ≤ i := Nat.le_of_not_lt content
    obtain ⟨⟨long, _⟩, _⟩ := validate_eq_ok_iff.mp checked
    have summed : lengthOffset < i := Nat.lt_of_lt_of_le (by decide) (Nat.le_trans long behind)
    have within : i - message.length < (toBigEndian (checksum message)).length := by
      rw [length_packet] at inside
      simp only [toBigEndian, List.length_cons, List.length_nil]
      omega
    have differs : value ≠ (toBigEndian (checksum message))[i - message.length] := by
      simpa only [packet, List.getElem_append_right behind] using other
    obtain ⟨high, low, changed, moved⟩ := spells_other within differs
    rw [bigEndian_toBigEndian, ← sum_of_validate checked] at moved
    rw [packet, List.set_append_right i value behind, damageAt_of_lt summed, toBigEndian, changed]
    exact verify_of_ne checked moved

/-- The last byte of a packet is damaged. -/
theorem detects_damage_last :
    verify (packet request) = .ok () ∧ verify ((packet request).set 25 0) = .error .wrongChecksum :=
  ⟨by decide, detects_damage (by decide) (by decide) (by decide)⟩

end Dmx512.Message
