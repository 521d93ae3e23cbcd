import Mathlib.Data.List.Basic
import Dmx512.Rdm.Message

/-!
# Messages and their checksums

The sum of bytes is additive, and the two bytes behind a message spell it. A message that
is not well-formed has one or more defects, of which its check names the first. A message
that passes its check is no longer than its length field can declare, so there is room
for its checksum; with it, it is a packet, and what passes the check of a packet is the
packet of such a message.
-/

namespace Dmx512

open Standard

/-- A sum that has begun goes on with the sum of the rest. -/
theorem foldl_checksum (sum : UInt16) (bytes : List UInt8) :
    bytes.foldl (fun sum byte => sum + byte.toUInt16) sum = sum + checksum bytes := by
  induction bytes generalizing sum with
  | nil => exact (UInt16.add_zero sum).symm
  | cons byte rest ih =>
      rw [checksum, List.foldl_cons, List.foldl_cons, ih, ih (0 + byte.toUInt16), UInt16.zero_add,
        UInt16.add_assoc]

@[simp] theorem checksum_cons (byte : UInt8) (rest : List UInt8) :
    checksum (byte :: rest) = byte.toUInt16 + checksum rest := by
  rw [checksum, List.foldl_cons, foldl_checksum, UInt16.zero_add]

theorem checksum_singleton (byte : UInt8) : checksum [byte] = byte.toUInt16 :=
  UInt16.zero_add _

theorem checksum_append (front back : List UInt8) :
    checksum (front ++ back) = checksum front + checksum back :=
  List.foldl_append.trans (foldl_checksum _ back)

/-- Another byte in the place of one moves the sum by their difference. -/
theorem checksum_set {bytes : List UInt8} {i : Nat} (inside : i < bytes.length) (value : UInt8) :
    checksum (bytes.set i value) + bytes[i].toUInt16 = checksum bytes + value.toUInt16 := by
  have parts : bytes = bytes.take i ++ bytes[i] :: bytes.drop (i + 1) := by simp
  conv => rhs; rw [parts]
  rw [List.set_eq_take_append_cons_drop, if_pos inside, checksum_append, checksum_append,
    checksum_cons, checksum_cons]
  ac_rfl

/-- Bytes differ by less than the range of a sum, so that one of them alone changes it. -/
theorem checksum_set_ne {bytes : List UInt8} {i : Nat} (inside : i < bytes.length) {value : UInt8}
    (other : value ≠ bytes[i]) : checksum (bytes.set i value) ≠ checksum bytes := by
  intro same
  have sums := checksum_set inside value
  rw [same, UInt16.add_right_inj] at sums
  exact other (UInt8.toUInt16_inj.mp sums.symm)

/-- The two bytes of a word spell it. -/
theorem bigEndian_toBigEndian (word : UInt16) :
    bigEndian (word >>> 8).toUInt8 word.toUInt8 = word := by
  apply UInt16.toNat_inj.mp
  have := word.toNat_lt
  simp only [bigEndian, UInt16.toNat_add, UInt16.toNat_mul, UInt8.toNat_toUInt16,
    UInt16.toNat_toUInt8, UInt16.toNat_shiftRight]
  simp [Nat.shiftRight_eq_div_pow]
  omega

/-- The first byte of a word counts 256 times. -/
theorem toNat_bigEndian (high low : UInt8) :
    (bigEndian high low).toNat = 256 * high.toNat + low.toNat := by
  have := high.toNat_lt
  have := low.toNat_lt
  simp only [bigEndian, UInt16.toNat_add, UInt16.toNat_mul, UInt8.toNat_toUInt16,
    UInt16.toNat_ofNat]
  omega

/-- Two bytes are those of the word that they spell. -/
theorem toBigEndian_bigEndian (high low : UInt8) :
    toBigEndian (bigEndian high low) = [high, low] := by
  have := high.toNat_lt
  have := low.toNat_lt
  have word := toNat_bigEndian high low
  have first : (bigEndian high low >>> 8).toUInt8 = high := by
    apply UInt8.toNat_inj.mp
    rw [UInt16.toNat_toUInt8, UInt16.toNat_shiftRight, word]
    simp [Nat.shiftRight_eq_div_pow]
    omega
  have second : (bigEndian high low).toUInt8 = low := by
    apply UInt8.toNat_inj.mp
    rw [UInt16.toNat_toUInt8, word]
    omega
  rw [toBigEndian, first, second]

theorem toBigEndian_eq_iff {word : UInt16} {high low : UInt8} :
    toBigEndian word = [high, low] ↔ bigEndian high low = word := by
  constructor
  · intro bytes
    obtain ⟨rfl, rfl⟩ : (word >>> 8).toUInt8 = high ∧ word.toUInt8 = low := by
      simpa [toBigEndian] using bytes
    exact bigEndian_toBigEndian word
  · rintro rfl
    exact toBigEndian_bigEndian high low

/-- Different words are spelled by different bytes. -/
theorem toBigEndian_inj {word word' : UInt16} :
    toBigEndian word = toBigEndian word' ↔ word = word' :=
  ⟨fun same => (toBigEndian_eq_iff.mp same).symm.trans (bigEndian_toBigEndian word'),
    congrArg toBigEndian⟩

/-- Different bytes spell different words. -/
theorem bigEndian_inj {high low high' low' : UInt8} :
    bigEndian high low = bigEndian high' low' ↔ high = high' ∧ low = low' := by
  refine ⟨fun same => ?_, by rintro ⟨rfl, rfl⟩; rfl⟩
  have bytes := congrArg toBigEndian same
  rw [toBigEndian_bigEndian, toBigEndian_bigEndian] at bytes
  simpa using bytes

namespace Message

/-- A message has a defect, whatever else is wrong with it. -/
def Has (message : List UInt8) : MessageError → Prop
  | .tooShort => message.length < messageMin
  | .tooLong => messageMax < message.length
  | .wrongStartCode => message[0]? ≠ some rdmStartCode ∨ message[1]? ≠ some rdmSubStartCode
  | .wrongLength => message[lengthOffset]?.map UInt8.toNat ≠ some message.length
  | .malformedResponse | .wrongChecksum => False

instance (message : List UInt8) : DecidablePred (Has message)
  | .tooShort | .tooLong => inferInstanceAs (Decidable (_ < _))
  | .wrongStartCode => inferInstanceAs (Decidable (_ ∨ _))
  | .wrongLength => inferInstanceAs (Decidable (_ ≠ _))
  | .malformedResponse | .wrongChecksum => inferInstanceAs (Decidable False)

/-- The defect of a message that is named: of all that it has, the first of this order. -/
def firstDefect? (message : List UInt8) : Option MessageError :=
  [.tooShort, .tooLong, .wrongStartCode, .wrongLength].find? fun defect => Has message defect

theorem validate_eq_firstDefect (message : List UInt8) :
    validate message = match firstDefect? message with
      | some defect => .error defect
      | none => .ok (checksum message) := by
  unfold validate firstDefect?
  simp only [List.find?_cons, List.find?_nil]
  split
  case isTrue short => rw [decide_eq_true (show Has message .tooShort from short)]
  case isFalse short =>
  rw [decide_eq_false (show ¬ Has message .tooShort from short)]
  split
  case isTrue long => rw [decide_eq_true (show Has message .tooLong from long)]
  case isFalse long =>
  rw [decide_eq_false (show ¬ Has message .tooLong from long)]
  split
  case isTrue codes => rw [decide_eq_true (show Has message .wrongStartCode from codes)]
  case isFalse codes =>
  rw [decide_eq_false (show ¬ Has message .wrongStartCode from codes)]
  split
  case isTrue declared => rw [decide_eq_true (show Has message .wrongLength from declared)]
  case isFalse declared => rw [decide_eq_false (show ¬ Has message .wrongLength from declared)]

theorem firstDefect?_eq_none_iff {message : List UInt8} : firstDefect? message = none ↔
    messageMin ≤ message.length ∧ message.length ≤ messageMax ∧
      message[0]? = some rdmStartCode ∧ message[1]? = some rdmSubStartCode ∧
      message[lengthOffset]?.map UInt8.toNat = some message.length := by
  simp only [firstDefect?, List.find?_eq_none, decide_eq_true_eq, List.forall_mem_cons,
    List.not_mem_nil, false_implies, implies_true, and_true]
  simp only [Has, Nat.not_lt, not_or, Decidable.not_not, and_assoc]

/-- A message passes its check exactly if it has a header, no more than its length
field can declare, both start codes and the declared length. -/
theorem validate_eq_ok_iff {message : List UInt8} {sum : UInt16} :
    validate message = .ok sum ↔
      (messageMin ≤ message.length ∧ message.length ≤ messageMax ∧
        message[0]? = some rdmStartCode ∧ message[1]? = some rdmSubStartCode ∧
        message[lengthOffset]?.map UInt8.toNat = some message.length) ∧
      checksum message = sum := by
  rw [validate_eq_firstDefect, ← firstDefect?_eq_none_iff]
  cases firstDefect? message with
  | none => simp
  | some defect => simp

theorem length_of_validate {message : List UInt8} {sum : UInt16}
    (valid : validate message = .ok sum) : message.length ≤ messageMax :=
  (validate_eq_ok_iff.mp valid).1.2.1

theorem prepare_of_valid {message : List UInt8} {sum : UInt16}
    (valid : validate message = .ok sum) (transaction : UInt8) :
    prepare message transaction = (.ok (checksum (message.set transactionOffset transaction)),
      message.set transactionOffset transaction) := by
  rw [prepare, valid]

theorem prepare_of_defect {message : List UInt8} {defect : MessageError}
    (wrong : validate message = .error defect) (transaction : UInt8) :
    prepare message transaction = (.error defect, message) := by
  rw [prepare, wrong]

/-- A byte behind its declared length does not spoil a message. -/
theorem validate_set_behind {message : List UInt8} {sum : UInt16}
    (valid : validate message = .ok sum) {i : Nat} (behind : lengthOffset < i) (value : UInt8) :
    validate (message.set i value) = .ok (checksum (message.set i value)) := by
  obtain ⟨⟨long, short, first, second, declared⟩, _⟩ := validate_eq_ok_iff.mp valid
  have kept {j : Nat} (before : j ≤ lengthOffset) : (message.set i value)[j]? = message[j]? :=
    List.getElem?_set_ne (Nat.ne_of_gt (Nat.lt_of_le_of_lt before behind))
  refine validate_eq_ok_iff.mpr ⟨?_, rfl⟩
  rw [List.length_set, kept (Nat.zero_le _), kept (by decide), kept (Nat.le_refl _)]
  exact ⟨long, short, first, second, declared⟩

/-- Stamping a number into a message does not spoil it. -/
theorem validate_set {message : List UInt8} {sum : UInt16} (valid : validate message = .ok sum)
    (number : UInt8) : validate (message.set transactionOffset number) =
      .ok (checksum (message.set transactionOffset number)) :=
  validate_set_behind valid (by decide) number

/-- A message as it is sent, with its checksum. -/
def packet (message : List UInt8) : List UInt8 := message ++ toBigEndian (checksum message)

theorem length_packet (message : List UInt8) : (packet message).length = message.length + 2 :=
  List.length_append

theorem sum_of_validate {message : List UInt8} {sum : UInt16}
    (valid : validate message = .ok sum) : sum = checksum message :=
  (validate_eq_ok_iff.mp valid).2.symm

/-- A message has both codes and is as long as it declares. It may be too short for a header. -/
structure Framed (message : List UInt8) : Prop where
  startCode : message[0]? = some rdmStartCode
  subStartCode : message[1]? = some rdmSubStartCode
  declares : message[lengthOffset]?.map UInt8.toNat = some message.length

namespace Framed

variable {message : List UInt8}

theorem le_messageMax (h : Framed message) : message.length ≤ messageMax := by
  obtain ⟨declared, _, length⟩ := Option.map_eq_some_iff.mp h.declares
  rw [← length]
  exact Nat.le_of_lt_succ declared.toNat_lt

/-- Only its length may be wrong. -/
theorem validate_eq (h : Framed message) : validate message =
    if message.length < messageMin then .error .tooShort else .ok (checksum message) := by
  split
  · rename_i short
    rw [validate, if_pos short]
  · rename_i long
    exact validate_eq_ok_iff.mpr ⟨⟨Nat.le_of_not_lt long, h.le_messageMax, h.startCode,
      h.subStartCode, h.declares⟩, rfl⟩

theorem head?_packet (h : Framed message) : (packet message).head? = some rdmStartCode := by
  have first := h.startCode
  rw [← List.head?_eq_getElem?] at first
  rw [packet, List.head?_append, first, Option.some_or]

end Framed

/-- Bytes behind which two more follow are checked as a message with its checksum. -/
theorem verify_append (message : List UInt8) (high low : UInt8) :
    verify (message ++ [high, low]) = (validate message).bind fun sum =>
      if bigEndian high low = sum then .ok () else .error .wrongChecksum := by
  have length : (message ++ [high, low]).length = message.length + 2 := List.length_append
  rw [verify, if_neg (by omega), length, Nat.add_sub_cancel, List.take_left' rfl,
    List.drop_left' rfl]
  cases validate message with
  | error defect => rfl
  | ok sum => exact ite_not _ _ _

/-- A packet passes its check exactly if its message is well-formed. -/
theorem verify_packet (message : List UInt8) :
    verify (packet message) = (validate message).map fun _ => () := by
  rw [packet, toBigEndian, verify_append]
  cases valid : validate message with
  | error defect => rfl
  | ok sum => exact if_pos (by rw [bigEndian_toBigEndian, sum_of_validate valid])

theorem exists_checksum {bytes : List UInt8} (long : 2 ≤ bytes.length) :
    ∃ message high low, bytes = message ++ [high, low] := by
  have tail : (bytes.drop (bytes.length - 2)).length = 2 := by
    rw [List.length_drop]
    omega
  obtain ⟨high, low, spelled⟩ := List.length_eq_two.mp tail
  exact ⟨bytes.take (bytes.length - 2), high, low, by rw [← spelled, List.take_append_drop]⟩

/-- What passes the check of a packet is the packet of a well-formed message. -/
theorem packet_of_verify {bytes : List UInt8} (valid : verify bytes = .ok ()) :
    ∃ message sum, validate message = .ok sum ∧ bytes = packet message := by
  have long : 2 ≤ bytes.length := by
    by_contra short
    rw [verify, if_pos (Nat.lt_of_not_le short)] at valid
    contradiction
  obtain ⟨message, high, low, rfl⟩ := exists_checksum long
  rw [verify_append] at valid
  cases checked : validate message with
  | error defect =>
      rw [checked] at valid
      contradiction
  | ok sum =>
      rw [checked, Except.bind] at valid
      split at valid
      · rename_i spelled
        refine ⟨message, sum, checked, ?_⟩
        rw [packet, ← sum_of_validate checked, ← spelled, toBigEndian_bigEndian]
      · contradiction

theorem withChecksum_ok {message : List UInt8} (short : message.length ≤ messageMax) :
    withChecksum message (checksum message) = .ok (packet message) := by
  rw [withChecksum, if_pos (by simp only [messageMax, rdmCapacity] at short ⊢; omega), packet]

end Message

end Dmx512
