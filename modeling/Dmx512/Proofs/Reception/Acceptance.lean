import Dmx512.Proofs.Reception.Story

/-!
# Which RDM packets are published

A packet that starts with the code of RDM declares its length in its third byte.
It ends two bytes behind the declared length; one that declares less than three
bytes never completes and ends when it outgrows the buffer. `rdmExtent` is the
number of bytes at which a packet ends. Until then nothing is published, and
then the packet is, exactly if it is accepted.
-/

namespace Dmx512

open Standard

/-- How many bytes a packet takes that declares a length. -/
def rdmExtent (declared : UInt8) : Nat :=
  if declared.toNat < 3 then rdmCapacity + 1 else declared.toNat + 2

/-- The shortest packet declares three bytes. -/
theorem five_le_rdmExtent (declared : UInt8) : 5 ≤ rdmExtent declared := by
  rw [rdmExtent]
  split
  · simp [rdmCapacity]
  · omega

/-- More bytes are to come behind those of a packet. -/
def RdmUnfinished (bytes : List UInt8) : Prop :=
  ∀ declared, bytes[lengthOffset]? = some declared → bytes.length < rdmExtent declared

/-- A packet with its two checksum bytes has the right byte behind its start
code, and its last two bytes spell the sum of those before. -/
def RdmAccepted (bytes : List UInt8) : Prop :=
  bytes[1]? = some rdmSubStartCode ∧
    checksum (bytes.take (bytes.length - 2)) =
      bigEndian (bytes.getD (bytes.length - 2) 0) (bytes.getD (bytes.length - 1) 0)

instance (bytes : List UInt8) : Decidable (RdmAccepted bytes) :=
  inferInstanceAs (Decidable (_ ∧ _))

/-- What comes later does not change where a packet ends. -/
theorem RdmUnfinished.of_append {bytes more : List UInt8} (h : RdmUnfinished (bytes ++ more)) :
    RdmUnfinished bytes := by
  intro declared found
  have early : lengthOffset < bytes.length := (List.getElem?_eq_some_iff.mp found).1
  have := h declared (by rw [List.getElem?_append_left early, found])
  rw [List.length_append] at this
  omega

/-- Before its last byte a packet is unfinished, and long enough to declare its length. -/
theorem RdmUnfinished.of_last {bytes : List UInt8} {value declared : UInt8}
    (found : (bytes ++ [value])[lengthOffset]? = some declared)
    (finished : (bytes ++ [value]).length = rdmExtent declared) :
    4 ≤ bytes.length ∧ RdmUnfinished bytes := by
  rw [List.length_append, List.length_singleton] at finished
  have least := five_le_rdmExtent declared
  have long : 4 ≤ bytes.length := by omega
  refine ⟨long, ?_⟩
  intro other found'
  rw [List.getElem?_append_left (by simp only [lengthOffset]; omega), found'] at found
  cases found
  omega

theorem rdmAccepted_iff {message : List UInt8} {high low : UInt8} (three : 3 ≤ message.length) :
    RdmAccepted (message ++ [high] ++ [low]) ↔ Receiver.Accepts message high low := by
  have split : message ++ [high] ++ [low] = message ++ [high, low] := by simp
  have front : (message ++ [high, low]).take message.length = message := List.take_left' rfl
  have second : (message ++ [high, low])[1]? = message[1]? :=
    List.getElem?_append_left (by omega)
  have highByte : (message ++ [high, low]).getD message.length 0 = high := by simp
  have lowByte : (message ++ [high, low]).getD (message.length + 1) 0 = low := by simp
  have length : (message ++ [high, low]).length = message.length + 2 := by simp
  rw [split, RdmAccepted, Receiver.Accepts, length]
  simp only [Nat.add_sub_cancel, Nat.add_succ_sub_one, front, second, highByte, lowByte]
  exact And.comm

namespace Receiver

/-- A receiver has gathered bytes of an RDM packet and awaits more. -/
structure Gathers (r : Receiver) (bytes : List UInt8) : Prop where
  wellFormed : r.WellFormed
  state : r.state = .rdmData ∨ r.state = .checksumHigh ∨ r.state = .checksumLow
  bytes : r.rdmBytes = bytes

namespace Gathers

variable {r : Receiver} {bytes : List UInt8}

theorem index_le (h : r.Gathers bytes) : r.index ≤ rdmCapacity := by
  rcases h.state with state | state | state
  · exact (h.wellFormed.holds state).2.1
  · exact Nat.le_of_lt (h.wellFormed.room state trivial)
  · exact Nat.le_of_lt (h.wellFormed.room state trivial)

theorem index_eq (h : r.Gathers bytes) : r.index = bytes.length := by
  rw [← h.bytes, length_rdmBytes h.index_le]

/-- The declared length is in the buffer as soon as it has arrived. -/
theorem declared_eq (h : r.Gathers bytes) {declared : UInt8}
    (found : bytes[lengthOffset]? = some declared) : r.declaredLength = declared.toNat := by
  have early : lengthOffset < bytes.length := (List.getElem?_eq_some_iff.mp found).1
  rw [← h.bytes, rdmBytes,
    Buffer.getElem?_take r.rdmBuffer (by rw [h.index_eq]; exact early) (by decide)] at found
  exact congrArg UInt8.toNat (Option.some_inj.mp found)

theorem exists_declared (h : r.Gathers bytes) (three : 3 ≤ bytes.length) :
    ∃ declared : UInt8, bytes[lengthOffset]? = some declared ∧
      r.declaredLength = declared.toNat := by
  have found : bytes[lengthOffset]? = some bytes[lengthOffset] := List.getElem?_eq_getElem three
  exact ⟨_, found, h.declared_eq found⟩

theorem state_ne_dmxData (h : r.Gathers bytes) : r.state ≠ .dmxData := by
  rcases h.state with state | state | state <;> rw [state] <;> decide

/-- No deadline is pending while a message is gathered, so a timeout is stale. -/
theorem timeout (h : r.Gathers bytes) (now : Micros) :
    r.attend .timeout now = .ok (r, none) :=
  onTimeout_stale h.state_ne_dmxData now

theorem byte (h : r.Gathers bytes) (value : UInt8) (now : Micros)
    (unfinished : RdmUnfinished (bytes ++ [value])) :
    ∃ t, r.attend (.signal (.byte value)) now = .ok (t, none) ∧ t.Gathers (bytes ++ [value]) := by
  have index := h.index_eq
  have found (three : 3 ≤ bytes.length) : ∃ declared : UInt8,
      r.declaredLength = declared.toNat ∧ bytes.length + 1 < rdmExtent declared := by
    obtain ⟨declared, spelled, length⟩ := h.exists_declared three
    have := unfinished declared (by rw [List.getElem?_append_left three, spelled])
    exact ⟨declared, length, by simpa using this⟩
  rcases h.state with state | state | state
  · obtain ⟨wf, joins⟩ := h.wellFormed.onMessageByte state value
    have more : r.index ≠ rdmCapacity := by
      intro full
      obtain ⟨declared, _, early⟩ := found (by rw [← index, full]; decide)
      have small := declared.toNat_lt
      simp only [rdmExtent, rdmCapacity] at early full
      split at early <;> omega
    rw [if_neg more] at joins
    refine ⟨r.onMessageByte value, ?_, wf, joins.2.imp_right .inl, by rw [joins.1, h.bytes]⟩
    simp only [attend, hear, onByte, state]
    rfl
  · obtain ⟨wf, low, bytes⟩ := h.wellFormed.onChecksumHigh state value
    refine ⟨r.onChecksumHigh value, ?_, wf, .inr (.inr low), by rw [bytes, h.bytes]⟩
    simp only [attend, hear, onByte, state]
    rfl
  · obtain ⟨message, high, _, three, long, position, _⟩ := h.wellFormed.holds state
    obtain ⟨declared, length, early⟩ := found (by omega)
    rw [rdmExtent, ← length, ← long, if_neg (by omega)] at early
    omega

theorem last (h : r.Gathers bytes) (value : UInt8) (now : Micros) {declared : UInt8}
    (found : (bytes ++ [value])[lengthOffset]? = some declared)
    (finished : (bytes ++ [value]).length = rdmExtent declared) :
    ∃ t frame, r.attend (.signal (.byte value)) now = .ok (t, frame) ∧ t.state = .idle ∧
      frame = (if 3 ≤ declared.toNat ∧ RdmAccepted (bytes ++ [value]) then
        some (.rdm { data := bytes ++ [value] }) else none) ∧
      (frame.isSome → t.counters.rdmReceiveEnd = now) := by
  have index := h.index_eq
  have small := declared.toNat_lt
  have length : bytes.length + 1 = rdmExtent declared := by simpa using finished
  have three : 3 ≤ bytes.length := Nat.le_of_succ_le (RdmUnfinished.of_last found finished).1
  have inBuffer : r.declaredLength = declared.toNat :=
    h.declared_eq (by rw [← found, List.getElem?_append_left three])
  rcases h.state with state | state | state
  · -- Only a packet that never completes can end here, by outgrowing the buffer.
    obtain ⟨_, _, _, _, short⟩ := h.wellFormed.holds state
    rw [inBuffer] at short
    have never : declared.toNat < 3 := by
      apply Decidable.byContradiction
      intro completes
      rw [rdmExtent, if_neg completes] at length
      have := short (by omega) (by omega)
      omega
    rw [rdmExtent, if_pos never] at length
    have full : r.index = rdmCapacity := by omega
    have ends := (h.wellFormed.onMessageByte state value).2
    rw [if_pos full] at ends
    refine ⟨r.onMessageByte value, none, ?_, ends, ?_, by simp⟩
    · simp only [attend, hear, onByte, state]
      rfl
    · rw [if_neg (by omega)]
  · obtain ⟨_, position, _⟩ := h.wellFormed.holds state
    rw [inBuffer] at position
    rw [rdmExtent, if_neg (by omega)] at length
    omega
  · obtain ⟨message, high, t, frame, gathered, long, spelled, ended, _, idle, published,
      receiveEnd⟩ := h.wellFormed.onChecksumLow state value now
    rw [h.bytes] at gathered published
    refine ⟨t, frame, ?_, idle, ?_, receiveEnd⟩
    · simpa only [attend, hear, onByte, state] using ended
    · have declares : message[lengthOffset]? = some declared := by
        rw [← found, gathered, List.append_assoc, List.getElem?_append_left long]
      rw [declares, Option.map_some, Option.some_inj] at spelled
      rw [published, gathered]
      simp only [rdmAccepted_iff long, spelled, long, true_and]

/-- While a packet is unfinished, its bytes are gathered and nothing is published. -/
theorem follows {t : Receiver} {story : List Occasion} (follows : Follows r story t)
    (h : r.Gathers bytes) (clean : ∀ o ∈ story, o.IsClean)
    (unfinished : RdmUnfinished (bytes ++ storyBytes story)) :
    t.Gathers (bytes ++ storyBytes story) ∧ ∀ o ∈ story, o.published = [] := by
  induction follows generalizing bytes with
  | nil => simpa [storyBytes] using h
  | @cons r m t o rest frame now published later ih =>
      obtain ⟨first, others⟩ := List.forall_mem_cons.mp clean
      rw [List.forall_mem_cons]
      rcases first with timeout | ⟨value, arrives⟩
      · rw [storyBytes_timeout timeout] at unfinished ⊢
        rw [timeout, h.timeout] at now
        cases now
        obtain ⟨gathered, silent⟩ := ih h others unfinished
        exact ⟨gathered, published, silent⟩
      · have joined : bytes ++ storyBytes (o :: rest) = bytes ++ [value] ++ storyBytes rest := by
          rw [storyBytes_byte arrives, List.append_assoc, List.singleton_append]
        rw [joined] at unfinished ⊢
        obtain ⟨next, ended, gathers⟩ := h.byte value o.time unfinished.of_append
        rw [arrives, ended] at now
        cases now
        obtain ⟨gathered, silent⟩ := ih gathers others unfinished
        exact ⟨gathered, published, silent⟩

end Gathers

/-- A packet begins with its start code. -/
theorem Gathers.of_startCode {r : Receiver} (wf : r.WellFormed) (state : r.state = .lineBreak)
    (now : Micros) :
    ∃ t, r.attend (.signal (.byte rdmStartCode)) now = .ok (t, none) ∧
      t.Gathers [rdmStartCode] := by
  obtain ⟨counters, started⟩ := r.onStartCode_rdm now
  obtain ⟨t, frame, attended, next⟩ := wf.attend (.signal (.byte rdmStartCode)) now
  have ended := attended
  simp only [attend, hear, onByte, state, started] at ended
  cases ended
  exact ⟨_, attended, next, .inl rfl, rdmBytes_startCode rdmStartCode rfl rfl⟩

/-- Behind a break, the bytes of a packet that starts with the code of RDM are
gathered. -/
theorem gathers_of_lineBreak {r t : Receiver} {story : List Occasion} (wf : r.WellFormed)
    (state : r.state = .lineBreak) (follows : Follows r story t)
    (clean : ∀ o ∈ story, o.IsClean) (code : (storyBytes story).head? = some rdmStartCode)
    (unfinished : RdmUnfinished (storyBytes story)) :
    t.Gathers (storyBytes story) ∧ ∀ o ∈ story, o.published = [] := by
  induction follows with
  | nil => simp [storyBytes] at code
  | @cons r m t o rest frame now published later ih =>
      obtain ⟨first, others⟩ := List.forall_mem_cons.mp clean
      rw [List.forall_mem_cons]
      rcases first with timeout | ⟨value, arrives⟩
      · rw [storyBytes_timeout timeout] at code unfinished ⊢
        rw [timeout, attend, onTimeout_stale (by rw [state]; decide)] at now
        cases now
        obtain ⟨gathered, silent⟩ := ih wf state others code unfinished
        exact ⟨gathered, published, silent⟩
      · rw [storyBytes_byte arrives] at code unfinished ⊢
        have value_eq : value = rdmStartCode := by simpa using code
        obtain ⟨next, ended, gathers⟩ := Gathers.of_startCode wf state o.time
        rw [arrives, value_eq, ended] at now
        cases now
        rw [value_eq] at unfinished ⊢
        obtain ⟨gathered, silent⟩ := gathers.follows later others unfinished
        exact ⟨gathered, published, silent⟩

/-- What comes of a packet that starts with the code of RDM behind a break. Until it
ends nothing is published; then the packet is, exactly if it is accepted, and the
receiver is idle. -/
theorem rdm_published {r t : Receiver} {before packet rest : List Occasion} {first : Occasion}
    (wf : r.WellFormed) (follows : Follows r (before ++ first :: (packet ++ rest)) t)
    (isBreak : first.IsBreak) (clean : ∀ o ∈ packet, o.IsClean)
    (code : (storyBytes packet).head? = some rdmStartCode) :
    (RdmUnfinished (storyBytes packet) → ∀ o ∈ packet, o.published = []) ∧
    ∀ front last declared, packet = front ++ [last] → last.byte?.isSome →
      (storyBytes packet)[lengthOffset]? = some declared →
      (storyBytes packet).length = rdmExtent declared →
      (∀ o ∈ front, o.published = []) ∧
      last.published = (if 3 ≤ declared.toNat ∧ RdmAccepted (storyBytes packet) then
        [.rdm { data := storyBytes packet }] else []) ∧
      ∃ m, Follows r (before ++ first :: packet) m ∧ Follows m rest t ∧ m.state = .idle ∧
        (last.published ≠ [] → m.counters.rdmReceiveEnd = last.time) := by
  obtain ⟨broken, wf', state, heard, later⟩ := wf.follows_lineBreak isBreak follows
  obtain ⟨ended, inPacket, inRest⟩ := later.split
  refine ⟨fun unfinished => (gathers_of_lineBreak wf' state inPacket clean code unfinished).2, ?_⟩
  rintro front last declared rfl arrives found finished
  obtain ⟨value, byte⟩ : ∃ value, last.cause = .signal (.byte value) := by
    rcases clean last (by simp) with timeout | byte
    · simp [Occasion.byte?, timeout] at arrives
    · exact byte
  have bytes : storyBytes (front ++ [last]) = storyBytes front ++ [value] := by
    rw [storyBytes_append, storyBytes_byte byte]
    rfl
  rw [bytes] at code found finished ⊢
  obtain ⟨long, unfinished⟩ := RdmUnfinished.of_last found finished
  obtain ⟨m, inFront, atLast⟩ := inPacket.split
  have code' : (storyBytes front).head? = some rdmStartCode := by
    have some : 0 < (storyBytes front).length := by omega
    obtain ⟨_, _, split⟩ := List.exists_cons_of_length_pos some
    rw [split] at code ⊢
    exact code
  obtain ⟨gathers, silent⟩ := gathers_of_lineBreak wf' state inFront
    (fun o mem => clean o (List.mem_append_left _ mem)) code' unfinished
  obtain ⟨u, frame, attended, idle, published, receiveEnd⟩ :=
    gathers.last value last.time found finished
  cases atLast with
  | cons now shown later =>
      rw [byte] at now
      cases now.symm.trans attended
      cases later
      refine ⟨silent, ?_, _, ?_, inRest, idle, fun some => receiveEnd ?_⟩
      · rw [shown, published]
        split <;> rfl
      · have whole : before ++ first :: (front ++ [last]) =
            before ++ [first] ++ (front ++ [last]) := by simp
        rw [whole]
        exact heard.append inPacket
      · cases frame with
        | none => exact absurd shown some
        | some frame => rfl

end Receiver

end Dmx512
