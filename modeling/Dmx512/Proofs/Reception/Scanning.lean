import Mathlib.Data.List.Basic
import Dmx512.Proofs.Rdm.Discovery
import Dmx512.Proofs.Reception.Story

/-!
# What an idle receiver captures

Between packets a receiver looks for discovery responses in whatever bytes come. A capture
begins with a preamble byte, and then takes every byte: its preamble ends with the first
delimiter, or with its eighth byte without one, and an identifier and a checksum of fixed
length follow. `Discovery.captures` lists what is captured of some bytes. An idle receiver
publishes exactly that, whatever packet the bytes belong to; what a responder sends is one
capture.
-/

namespace Dmx512

open Standard

namespace Discovery

/-- How many bytes the preamble takes that begins some bytes, its delimiter included. -/
def preambleLength (bytes : List UInt8) : Nat :=
  min (bytes.idxOf delimiterByte + 1) (preambleMax + 1)

/-- How many bytes are captured in all where some bytes begin a capture. -/
def captureLength (bytes : List UInt8) : Nat :=
  preambleLength bytes + encodedUidSize + encodedSumSize

/-- A capture ends when its preamble, its identifier and its checksum are there. -/
def IsWhole (captured : List UInt8) : Prop := captured.length = captureLength captured

instance (captured : List UInt8) : Decidable (IsWhole captured) :=
  inferInstanceAs (Decidable (_ = _))

/-- What is captured with a byte more: nothing before a preamble byte, and then every byte. -/
def capture (captured : List UInt8) (byte : UInt8) : List UInt8 :=
  if captured = [] ∧ byte ≠ preambleByte then [] else captured ++ [byte]

/-- The captures that bytes complete behind what is captured so far. -/
def capturesBehind (captured : List UInt8) : List UInt8 → List (List UInt8)
  | [] => []
  | byte :: rest =>
    if IsWhole (capture captured byte) then
      capture captured byte :: capturesBehind [] rest
    else
      capturesBehind (capture captured byte) rest

def captures (bytes : List UInt8) : List (List UInt8) := capturesBehind [] bytes

example : captures ([0x01, 0xFE, 0xAA] ++ List.replicate 18 0x07) =
    [[0xFE, 0xAA] ++ List.replicate 16 0x07] := by decide

section Parts

variable {captured bytes more : List UInt8} {byte : UInt8}

/-- Every byte of a capture is one that came, in order. -/
theorem capture_suffix (captured : List UInt8) (byte : UInt8) :
    capture captured byte <:+ captured ++ [byte] := by
  rw [capture]
  split
  · exact List.nil_suffix
  · exact List.suffix_rfl

theorem capturesBehind_infix {data : List UInt8} (mem : data ∈ capturesBehind captured bytes) :
    data <:+: captured ++ bytes := by
  induction bytes generalizing captured with
  | nil => cases mem
  | cons byte rest ih =>
      have parts : captured ++ byte :: rest = captured ++ [byte] ++ rest := by simp
      have kept := capture_suffix captured byte
      rw [parts]
      rw [capturesBehind] at mem
      split at mem
      · rcases List.mem_cons.mp mem with rfl | later
        · exact kept.isInfix.trans (List.prefix_append _ _).isInfix
        · exact (ih later).trans (List.suffix_append _ _).isInfix
      · obtain ⟨before, whole⟩ := kept
        rw [← whole, List.append_assoc]
        exact (ih mem).trans (List.suffix_append _ _).isInfix

def Begun (captured : List UInt8) : Prop := captured = [] ∨ captured.head? = some preambleByte

theorem Begun.capture (h : Begun captured) (byte : UInt8) : Begun (capture captured byte) := by
  rw [Discovery.capture]
  split
  · exact .inl rfl
  · rename_i begins
    refine .inr ?_
    rcases h with rfl | head
    · by_cases preamble : byte = preambleByte
      · rw [preamble]
        rfl
      · exact absurd ⟨rfl, preamble⟩ begins
    · rw [List.head?_append, head]
      rfl

theorem captureLength_bounds (captured : List UInt8) :
    encodedUidSize + encodedSumSize < captureLength captured ∧
      captureLength captured ≤ discoverySize := by
  simp only [captureLength, preambleLength, preambleMax, encodedUidSize, encodedSumSize,
    discoverySize]
  omega

/-- The delimiter is not the first byte of a capture. -/
theorem two_le_preambleLength (head : captured.head? = some preambleByte) :
    2 ≤ preambleLength captured := by
  cases captured with
  | nil => cases head
  | cons byte rest =>
      have first : byte = preambleByte := Option.some_inj.mp head
      have other : preambleByte ≠ delimiterByte := by decide
      rw [preambleLength, first, List.idxOf_cons_ne _ other]
      simp only [preambleMax]
      omega

/-- What is complete is not empty. -/
theorem Begun.head?_of_isWhole (h : Begun captured) (complete : IsWhole captured) :
    captured.head? = some preambleByte := by
  refine h.resolve_left fun none => ?_
  have bounds := (captureLength_bounds captured).1
  rw [← complete, none] at bounds
  exact Nat.not_lt_zero _ bounds

/-- A capture begins with a preamble byte, and is whole. -/
theorem head?_of_mem (begun : Begun captured) {data : List UInt8}
    (mem : data ∈ capturesBehind captured bytes) :
    data.head? = some preambleByte ∧ IsWhole data := by
  induction bytes generalizing captured with
  | nil => cases mem
  | cons byte rest ih =>
      rw [capturesBehind] at mem
      split at mem
      · rename_i complete
        rcases List.mem_cons.mp mem with rfl | later
        · exact ⟨(begun.capture byte).head?_of_isWhole complete, complete⟩
        · exact ih (.inl rfl) later
      · exact ih (begun.capture byte) mem

/-- What begins with a preamble byte is a capture of 18 to 24 bytes. -/
theorem captureLength_range (head : captured.head? = some preambleByte) :
    18 ≤ captureLength captured ∧ captureLength captured ≤ discoverySize := by
  have two := two_le_preambleLength head
  refine ⟨?_, (captureLength_bounds captured).2⟩
  rw [captureLength]
  simp only [encodedUidSize, encodedSumSize]
  omega

theorem captures_bounds {data : List UInt8} (mem : data ∈ captures bytes) :
    data.head? = some preambleByte ∧ data <:+: bytes ∧ 18 ≤ data.length ∧
      data.length ≤ discoverySize := by
  obtain ⟨head, complete⟩ := head?_of_mem (.inl rfl) mem
  rw [complete]
  exact ⟨head, capturesBehind_infix mem, captureLength_range head⟩

/-- Without a preamble byte nothing is captured. -/
theorem captures_eq_nil (lacks : preambleByte ∉ bytes) : captures bytes = [] := by
  apply List.eq_nil_iff_forall_not_mem.mpr
  intro data mem
  obtain ⟨head, part, _⟩ := captures_bounds mem
  exact lacks (part.subset (List.mem_of_head? head))

/-- A preamble that has ended stays where it is. -/
theorem preambleLength_append (ended : preambleLength captured ≤ captured.length)
    (more : List UInt8) : preambleLength (captured ++ more) = preambleLength captured := by
  by_cases delimiter : delimiterByte ∈ captured
  · rw [preambleLength, List.idxOf_append_of_mem delimiter, preambleLength]
  · have full := ended
    rw [preambleLength, List.idxOf_eq_length delimiter] at full
    rw [preambleLength, preambleLength, List.idxOf_append_of_notMem delimiter,
      List.idxOf_eq_length delimiter]
    omega

/-- With its preamble ended, it is known how many bytes a capture takes. -/
theorem captureLength_append (ended : preambleLength captured ≤ captured.length)
    (more : List UInt8) : captureLength (captured ++ more) = captureLength captured := by
  rw [captureLength, preambleLength_append ended, captureLength]

/-- A preamble that goes on has no delimiter and is not full. -/
theorem lt_preambleLength :
    captured.length < preambleLength captured ↔
      delimiterByte ∉ captured ∧ captured.length ≤ preambleMax := by
  rw [preambleLength, Nat.lt_min, Nat.lt_succ_iff, Nat.lt_succ_iff]
  refine and_congr_left fun _ => ⟨fun none mem => ?_, fun none => ?_⟩
  · exact absurd (List.idxOf_lt_length_of_mem mem) (Nat.not_lt_of_le none)
  · exact Nat.le_of_eq (List.idxOf_eq_length none).symm

/-- The delimiter ends a preamble that goes on, and so does the byte that makes it full. -/
theorem preambleLength_concat (goesOn : captured.length < preambleLength captured)
    (byte : UInt8) :
    if byte = delimiterByte ∨ preambleMax ≤ captured.length then
      preambleLength (captured ++ [byte]) = captured.length + 1
    else captured.length + 1 < preambleLength (captured ++ [byte]) := by
  obtain ⟨none, short⟩ := lt_preambleLength.mp goesOn
  have found : (captured ++ [byte]).idxOf delimiterByte =
      captured.length + [byte].idxOf delimiterByte := List.idxOf_append_of_notMem none
  split
  · rename_i ends
    rw [preambleLength, found]
    rcases ends with rfl | full
    · rw [List.idxOf_cons_self]
      omega
    · omega
  · rename_i goesOn'
    obtain ⟨other, more⟩ := not_or.mp goesOn'
    rw [preambleLength, found, List.idxOf_cons_ne _ other]
    omega

/-- What is not yet whole is shorter than it will be, and so is each part of it. -/
theorem lt_captureLength {front rest : List UInt8}
    (fits : (front ++ rest).length ≤ captureLength (front ++ rest)) (more : rest ≠ []) :
    front.length < captureLength front := by
  -- Otherwise the preamble has ended in the front part, and the whole is no longer than that.
  by_contra full
  have ended : preambleLength front ≤ front.length := by
    rw [captureLength] at full
    omega
  have positive := List.length_pos_iff.mpr more
  rw [captureLength_append ended, List.length_append] at fits
  omega

/-- What a capture begins with is taken, and every byte behind it. -/
theorem capture_of_begins {front rest : List UInt8} {byte : UInt8}
    (begins : front ≠ [] ∨ (byte :: rest).head? = some preambleByte) :
    capture front byte = front ++ [byte] := by
  refine if_neg fun ignored => ?_
  rcases begins with some | first
  · exact some ignored.1
  · exact ignored.2 (Option.some_inj.mp first)

/-- The rest of a capture completes it. -/
theorem capturesBehind_of_isWhole {front rest : List UInt8}
    (begins : front ≠ [] ∨ rest.head? = some preambleByte) (whole : IsWhole (front ++ rest))
    (more : rest ≠ []) : capturesBehind front rest = [front ++ rest] := by
  induction rest generalizing front with
  | nil => exact absurd rfl more
  | cons byte later ih =>
      have parts : front ++ byte :: later = front ++ [byte] ++ later := by simp
      rw [capturesBehind, capture_of_begins begins]
      cases later with
      | nil =>
          rw [if_pos whole]
          rfl
      | cons next others =>
          rw [parts] at whole ⊢
          have goesOn : ¬ IsWhole (front ++ [byte]) :=
            Nat.ne_of_lt (lt_captureLength (Nat.le_of_eq whole) (List.cons_ne_nil next others))
          rw [if_neg goesOn]
          exact ih (.inl (by simp)) whole (List.cons_ne_nil next others)

/-- Where a capture is not longer than the bytes, as many of them as it takes are whole. -/
theorem isWhole_take {bytes : List UInt8} (enough : captureLength bytes ≤ bytes.length) :
    IsWhole (bytes.take (captureLength bytes)) := by
  have taken : (bytes.take (captureLength bytes)).length = captureLength bytes :=
    List.length_take_of_le enough
  have ended : preambleLength (bytes.take (captureLength bytes)) ≤
      (bytes.take (captureLength bytes)).length := by
    rw [taken]
    calc
      preambleLength (bytes.take (captureLength bytes)) ≤ preambleMax + 1 := Nat.min_le_right _ _
      _ ≤ encodedUidSize + encodedSumSize := by decide
      _ ≤ captureLength bytes := Nat.le_of_lt (captureLength_bounds bytes).1
  have same := captureLength_append ended (bytes.drop (captureLength bytes))
  rw [List.take_append_drop] at same
  exact taken.trans same

/-- What a responder sends is one capture, as long as a byte of its preamble is left. -/
theorem captures_drop_encode (uid : Uid) {lost : Nat} (few : lost < preambleMax) :
    captures ((encode uid).drop lost) = [(encode uid).drop lost] := by
  obtain ⟨left, kept⟩ := Nat.exists_eq_add_of_lt few
  have count : preambleMax - lost = left + 1 := by omega
  have short : left + 1 ≤ preambleMax := by omega
  have absent : delimiterByte ∉ List.replicate (left + 1) preambleByte := fun mem =>
    absurd (List.eq_of_mem_replicate mem) (by decide)
  have whole : IsWhole ((encode uid).drop lost) := by
    rw [IsWhole, captureLength, preambleLength, drop_encode uid (Nat.le_of_lt few), count,
      List.idxOf_append_of_notMem absent, List.idxOf_cons_self, List.length_append,
      List.length_replicate, List.length_cons, length_body]
    omega
  have first : ((encode uid).drop lost).head? = some preambleByte := by
    rw [drop_encode uid (Nat.le_of_lt few), count]
    rfl
  exact capturesBehind_of_isWhole (.inr first) whole
    (by rintro none; rw [none] at first; cases first)

end Parts

end Discovery

namespace Receiver

open Discovery

theorem onIdleByte_preamble (r : Receiver) :
    r.onIdleByte preambleByte = .ok { r with
      state := .discoveryPreamble, rdmBuffer := r.rdmBuffer.set 0 preambleByte, index := 1 } := by
  rw [Receiver.onIdleByte, if_pos rfl, Buffer.put_of_lt _ _ (by decide)]
  rfl

/-- Where a receiver stands that has captured some bytes. -/
inductive Scans (r : Receiver) (captured : List UInt8) : Prop where
  | idle (state : r.state = .idle) (nothing : captured = [])
  | preamble (state : r.state = .discoveryPreamble) (gathered : r.rdmBytes = captured)
      (goesOn : captured.length < preambleLength captured)
  | uid (state : r.state = .discoveryUid) (gathered : r.rdmBytes = captured)
      (position : captured.length = preambleLength captured + r.sectionIndex)
  | checksum (state : r.state = .discoveryChecksum) (gathered : r.rdmBytes = captured)
      (position : captured.length =
        preambleLength captured + encodedUidSize + r.sectionIndex)

namespace Scans

variable {r t : Receiver} {captured bytes : List UInt8}

theorem state_ne_dmxData (h : r.Scans captured) : r.state ≠ .dmxData := by
  cases h with
  | idle state | preamble state | uid state | checksum state => rw [state]; decide

/-- A capture that goes on is not complete. -/
theorem not_whole (h : r.Scans captured) (wf : r.WellFormed) : ¬ IsWhole captured := by
  rw [IsWhole]
  cases h with
  | idle _ nothing =>
      have some := (captureLength_bounds captured).1
      rw [nothing, List.length_nil] at *
      exact Nat.ne_of_lt (Nat.zero_lt_of_lt some)
  | preamble _ _ goesOn =>
      rw [captureLength]
      omega
  | uid state _ position | checksum state _ position =>
      have short := (wf.holds state).1
      rw [captureLength]
      omega

/-- A receiver that has captured nothing is idle. -/
theorem state_of_nil (h : r.Scans []) (wf : r.WellFormed) : r.state = .idle := by
  cases h with
  | idle state => exact state
  | preamble state gathered =>
      have low := (wf.holds state).1
      have length := length_rdmBytes (Nat.le_of_lt (wf.room state trivial))
      rw [gathered, List.length_nil] at length
      omega
  | uid _ _ position | checksum _ _ position =>
      rw [List.length_nil, preambleLength] at position
      omega

/-- What has been captured is not forgotten with the next byte. -/
theorem capture_eq (h : r.Scans captured) (wf : r.WellFormed) (busy : r.state ≠ .idle)
    (value : UInt8) : capture captured value = captured ++ [value] := by
  refine if_neg ?_
  rintro ⟨rfl, _⟩
  exact busy (h.state_of_nil wf)

/-- A receiver that captures nothing does not change with a byte that begins no preamble. -/
theorem attend_ignored (state : r.state = .idle) {value : UInt8} (other : value ≠ preambleByte)
    (now : Micros) : r.attend (.signal (.byte value)) now = .ok (r, none) := by
  have ignored : r.onIdleByte value = .ok r := if_neg other
  simp only [attend, hear, onByte, state, ignored]
  rfl

theorem byte_of_idle (state : r.state = .idle) (value : UInt8) (now : Micros) :
    ∃ t, r.attend (.signal (.byte value)) now = .ok (t, none) ∧ t.Scans (capture [] value) := by
  by_cases preamble : value = preambleByte
  · subst preamble
    refine ⟨_, by simp only [attend, hear, onByte, state, onIdleByte_preamble]; rfl, ?_⟩
    exact .preamble rfl (rdmBytes_startCode preambleByte rfl rfl) (by decide)
  · exact ⟨r, attend_ignored state preamble now, .idle state (if_pos ⟨rfl, preamble⟩)⟩

theorem byte_of_preamble (wf : r.WellFormed) (state : r.state = .discoveryPreamble)
    (gathered : r.rdmBytes = captured) (goesOn : captured.length < preambleLength captured)
    (value : UInt8) (now : Micros) :
    ∃ t, r.attend (.signal (.byte value)) now = .ok (t, none) ∧
      t.Scans (captured ++ [value]) := by
  obtain ⟨_, joined, ends⟩ := wf.onPreamble state value
  have index : r.index = captured.length := by
    rw [← gathered, length_rdmBytes (Nat.le_of_lt (wf.room state trivial))]
  have next := preambleLength_concat goesOn value
  rw [gathered] at joined
  rw [index] at ends
  refine ⟨r.onPreamble value, by simp only [attend, hear, onByte, state]; rfl, ?_⟩
  split at ends
  · rename_i last
    rw [if_pos last] at next
    refine .uid ends.1 joined ?_
    rw [next, ends.2, List.length_append]
    rfl
  · rename_i more
    rw [if_neg more] at next
    refine .preamble ends joined ?_
    rw [List.length_append]
    exact next

theorem byte_of_uid (wf : r.WellFormed) (state : r.state = .discoveryUid)
    (gathered : r.rdmBytes = captured)
    (position : captured.length = preambleLength captured + r.sectionIndex) (value : UInt8)
    (now : Micros) :
    ∃ t, r.attend (.signal (.byte value)) now = .ok (t, none) ∧
      t.Scans (captured ++ [value]) := by
  obtain ⟨_, joined, ends⟩ := wf.onEncodedUid state value
  have ended : preambleLength (captured ++ [value]) = preambleLength captured :=
    preambleLength_append (by omega) [value]
  rw [gathered] at joined
  refine ⟨r.onEncodedUid value, by simp only [attend, hear, onByte, state]; rfl, ?_⟩
  split at ends
  · rename_i last
    refine .checksum ends.1 joined ?_
    rw [ended, ends.2, List.length_append, position, ← last]
    rfl
  · refine .uid ends.1 joined ?_
    rw [ended, ends.2, List.length_append, position]
    rfl

/-- The last byte of the checksum publishes what was captured, whatever it says. -/
theorem byte_of_checksum (wf : r.WellFormed) (state : r.state = .discoveryChecksum)
    (gathered : r.rdmBytes = captured)
    (position : captured.length = preambleLength captured + encodedUidSize + r.sectionIndex)
    (value : UInt8) (now : Micros) :
    ∃ t frame, r.attend (.signal (.byte value)) now = .ok (t, frame) ∧
      if IsWhole (captured ++ [value]) then
        frame = some (.rdm { data := captured ++ [value] }) ∧ t.Scans []
      else frame = none ∧ t.Scans (captured ++ [value]) := by
  obtain ⟨t, frame, attended, _, joined, ends⟩ := wf.onEncodedSum state value now
  have ended : preambleLength (captured ++ [value]) = preambleLength captured :=
    preambleLength_append (by omega) [value]
  have complete : IsWhole (captured ++ [value]) ↔ r.sectionIndex + 1 = encodedSumSize := by
    rw [IsWhole, captureLength, ended, List.length_append, List.length_singleton, position]
    omega
  rw [gathered] at joined ends
  refine ⟨t, frame, by simpa only [attend, hear, onByte, state] using attended, ?_⟩
  split at ends
  · rename_i last
    rw [if_pos (complete.mpr last)]
    exact ⟨ends.2.1, .idle ends.1 rfl⟩
  · rename_i more
    rw [if_neg (mt complete.mp more)]
    refine ⟨ends.2.1, .checksum ends.1 joined ?_⟩
    rw [ended, ends.2.2, List.length_append, position]
    rfl

/-- A byte is captured or not, and completes a capture or not. -/
theorem byte (h : r.Scans captured) (wf : r.WellFormed) (value : UInt8) (now : Micros) :
    ∃ t frame, r.attend (.signal (.byte value)) now = .ok (t, frame) ∧
      if IsWhole (capture captured value) then
        frame = some (.rdm { data := capture captured value }) ∧ t.Scans []
      else frame = none ∧ t.Scans (capture captured value) := by
  have goesOn {next : List UInt8}
      (h : ∃ t, r.attend (.signal (.byte value)) now = .ok (t, none) ∧ t.Scans next) :
      ∃ t frame, r.attend (.signal (.byte value)) now = .ok (t, frame) ∧
        if IsWhole next then frame = some (.rdm { data := next }) ∧ t.Scans []
        else frame = none ∧ t.Scans next := by
    obtain ⟨t, attended, scans⟩ := h
    refine ⟨t, none, attended, ?_⟩
    rw [if_neg (scans.not_whole (wf.of_attend attended))]
    exact ⟨rfl, scans⟩
  by_cases idle : r.state = .idle
  · cases h with
    | idle state nothing =>
        rw [nothing]
        exact goesOn (byte_of_idle state value now)
    | preamble state | uid state | checksum state => cases idle.symm.trans state
  · rw [h.capture_eq wf idle]
    cases h with
    | idle state => exact absurd state idle
    | preamble state gathered short =>
        exact goesOn (byte_of_preamble wf state gathered short value now)
    | uid state gathered position => exact goesOn (byte_of_uid wf state gathered position value now)
    | checksum state gathered position =>
        exact byte_of_checksum wf state gathered position value now

/-- What a receiver publishes with a byte of a story, and what it has captured behind it. -/
theorem follows_byte {o : Occasion} {rest : List Occasion} {value : UInt8} (h : r.Scans captured)
    (wf : r.WellFormed) (arrives : o.cause = .signal (.byte value))
    (follows : Follows r (o :: rest) t) :
    ∃ m, m.WellFormed ∧ Follows m rest t ∧
      if IsWhole (capture captured value) then
        o.published = [.rdm { data := capture captured value }] ∧ m.Scans []
      else o.published = [] ∧ m.Scans (capture captured value) := by
  cases follows with
  | cons now published later =>
      obtain ⟨_, _, ended, scans⟩ := h.byte wf value o.time
      rw [arrives] at now
      have wf' := wf.of_attend now
      cases now.symm.trans ended
      refine ⟨_, wf', later, ?_⟩
      split at scans
      · rename_i complete
        obtain ⟨rfl, scans⟩ := scans
        rw [if_pos complete]
        exact ⟨published, scans⟩
      · rename_i goesOn
        obtain ⟨rfl, scans⟩ := scans
        rw [if_neg goesOn]
        exact ⟨published, scans⟩

/-- What bytes complete is published, and nothing else. -/
theorem published {part : List Occasion} (brings : Brings part bytes) (h : r.Scans captured)
    (wf : r.WellFormed) (follows : Follows r part t) :
    storyFrames part = (capturesBehind captured bytes).map fun data => .rdm { data } := by
  induction brings generalizing r captured with
  | nil => rfl
  | timeout served _ ih =>
      obtain ⟨silent, later⟩ := follows.timeout h.state_ne_dmxData served
      rw [storyFrames_cons, silent, List.nil_append]
      exact ih h wf later
  | byte arrives _ ih =>
      obtain ⟨m, wf', later, scans⟩ := h.follows_byte wf arrives follows
      rw [storyFrames_cons, capturesBehind]
      split at scans
      · rename_i complete
        obtain ⟨published, scans⟩ := scans
        rw [if_pos complete, published, ih scans wf' later]
        rfl
      · rename_i goesOn
        obtain ⟨silent, scans⟩ := scans
        rw [if_neg goesOn, silent, ih scans wf' later]
        rfl

end Scans

/-- An idle receiver publishes what the wire leaves of a response, as long as a byte of its
preamble is left. -/
theorem rest_published {r t : Receiver} {part : List Occasion} {uid : Uid} {lost : Nat}
    (wf : r.WellFormed) (idle : r.state = .idle) (follows : Follows r part t)
    (few : lost < preambleMax) (brings : Brings part ((encode uid).drop lost)) :
    storyFrames part = [.rdm { data := (encode uid).drop lost }] := by
  have published := Scans.published brings (.idle idle rfl) wf follows
  have whole : capturesBehind [] ((encode uid).drop lost) = [(encode uid).drop lost] :=
    captures_drop_encode uid few
  rwa [whole, List.map_singleton] at published

/-- An idle receiver publishes the response of a responder that it is told without a
break, and the response decodes to the responder's identifier. -/
theorem response_published {r t : Receiver} {part : List Occasion} {uid : Uid}
    (wf : r.WellFormed) (idle : r.state = .idle) (follows : Follows r part t)
    (brings : Brings part (encode uid)) :
    ∃ frame : RdmFrame, storyFrames part = [.rdm frame] ∧ frame.kind = .discoveryResponse ∧
      decode frame.data = .ok uid :=
  ⟨_, rest_published wf idle follows (by decide : 0 < preambleMax) brings, rfl, decode_encode uid⟩

/-- Behind a break, the first byte is the start code, and nothing is published with it. -/
theorem WellFormed.follows_startCode {m t : Receiver} {packet : List Occasion} {code : UInt8}
    {payload : List UInt8} (wf : m.WellFormed) (state : m.state = .lineBreak)
    (brings : Brings packet (code :: payload)) (follows : Follows m packet t) :
    ∃ early start rest u, packet = early ++ start :: rest ∧ storyFrames (early ++ [start]) = [] ∧
      m.onStartCode code start.time = .ok u ∧ u.WellFormed ∧ Brings rest payload ∧
      Follows u rest t := by
  obtain ⟨early, start, rest, rfl, timeouts, arrives, later⟩ := brings.exists_first
  obtain ⟨_, waits, behind⟩ := follows.split
  obtain ⟨rfl, silent⟩ := waits.stale (by rw [state]; decide) timeouts
  obtain ⟨u, began, wf'⟩ := wf.onStartCode state code start.time
  cases behind with
  | cons now published inRest =>
      simp only [arrives, Receiver.attend, hear, Receiver.onByte, state, began] at now
      cases now
      refine ⟨early, start, rest, u, rfl, ?_, began, wf', later, inRest⟩
      exact storyFrames_eq_nil (List.forall_mem_append.mpr
        ⟨silent, List.forall_mem_singleton.mpr published⟩)

/-- Of a packet with another start code than those of dimmer data and RDM, exactly what an
idle receiver captures is published. -/
theorem captures_published {r t : Receiver} {before packet rest : List Occasion}
    {first : Occasion} {code : UInt8} {payload : List UInt8} (wf : r.WellFormed)
    (follows : Follows r (before ++ first :: (packet ++ rest)) t) (isBreak : first.IsBreak)
    (brings : Brings packet (code :: payload)) (dmx : code ≠ dmxStartCode)
    (rdm : code ≠ rdmStartCode) :
    storyFrames packet = (captures payload).map fun data => .rdm { data } := by
  obtain ⟨m, wf', state, _, later⟩ := wf.follows_lineBreak isBreak follows
  obtain ⟨_, inPacket, _⟩ := later.split
  obtain ⟨early, start, behind, u, rfl, silent, began, wf'', brings', follows'⟩ :=
    wf'.follows_startCode state brings inPacket
  rw [onStartCode_other start.time dmx rdm] at began
  cases began
  have parts : early ++ start :: behind = early ++ [start] ++ behind := by simp
  rw [parts, storyFrames_append, silent, List.nil_append]
  exact Scans.published brings' (.idle rfl rfl) wf'' follows'

end Receiver

end Dmx512
