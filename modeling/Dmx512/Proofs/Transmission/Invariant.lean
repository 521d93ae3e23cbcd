import Dmx512.Transmission.Transmitter

/-!
# The invariant of a transmitter

Neither the frame on the wire nor the one queued behind it is longer than a full
frame, and no more bytes of a frame are sent than it has. Under these bounds no
computation of timing leaves its word, so every step of a transmitter has a
result.
-/

namespace Dmx512

open Standard

namespace Timing

theorem clamp_le {value low high : Micros} (h : low ≤ high) : clamp value low high ≤ high := by
  rw [clamp]
  split
  · exact h
  · split
    · exact UInt32.le_refl high
    · rename_i within
      exact UInt32.not_lt.mp within

/-- The shortest period lies far below the end of its word: break, mark and
payload are bounded. -/
theorem minimumPeriod_ok {breakTime markTime : Micros} (payload : Nat)
    (shortBreak : breakTime ≤ breakMax) (shortMark : markTime ≤ markMax) :
    ∃ minimum, minimumPeriod breakTime markTime payload = .ok minimum ∧
      minimum.toNat ≤ 2022616 := by
  have breakBound : breakTime.toNat ≤ 1000000 := UInt32.le_iff_toNat_le.mp shortBreak
  have markBound : markTime.toNat ≤ 1000000 := UInt32.le_iff_toNat_le.mp shortMark
  have slot : slotTime.toNat = 44 := rfl
  have short : min payload dmxCapacity ≤ 513 := Nat.min_le_right _ _
  rw [minimumPeriod, Checked.word_of_lt (by rw [slot]; omega)]
  refine ⟨_, rfl, ?_⟩
  rw [UInt32.toNat_ofNat_of_lt' (by rw [slot, UInt32.size]; omega), slot]
  omega

theorem effectivePeriod_ok (requested : Micros) {minimum : Micros}
    (small : minimum.toNat ≤ 2022616) :
    ∃ effective, effectivePeriod requested minimum = .ok effective := by
  have margin : latencyMargin.toNat = 4 := rfl
  rw [effectivePeriod]
  split
  · exact ⟨_, rfl⟩
  · rw [Checked.word_of_lt (by rw [margin]; omega)]
    exact ⟨_, rfl⟩

/-- Whatever is requested, a timing can be resolved. -/
theorem resolve_ok (breakTime markTime requested : Micros) (payload : Nat) :
    ∃ timing, resolve breakTime markTime requested payload = .ok timing := by
  have shortBreak : clampBreak breakTime ≤ breakMax := clamp_le (by decide)
  have shortMark : clampMark markTime ≤ markMax := clamp_le (by decide)
  obtain ⟨minimum, fits, small⟩ := minimumPeriod_ok payload shortBreak shortMark
  obtain ⟨effective, found⟩ := effectivePeriod_ok requested small
  simp only [resolve, fits, bind, Except.bind, found]
  exact ⟨_, rfl⟩

theorem forPayload_ok (timing : Timing) (payload : Nat) :
    ∃ next, timing.forPayload payload = .ok next :=
  resolve_ok ..

end Timing

namespace Transmitter

/-- Frames fit their buffer, and no more is sent of one than there is. -/
structure WellFormed (t : Transmitter) : Prop where
  wire : t.wire.length ≤ dmxCapacity
  queued : ∀ frame, t.queued = some frame → frame.length ≤ dmxCapacity
  sent : t.state = .data → t.sent ≤ t.wire.length

/-- The frame that the next break puts on the wire. -/
def next (t : Transmitter) : List UInt8 := t.queued.getD t.wire

variable {t : Transmitter}

/-- Only a transmitter in the middle of a frame counts the bytes it has sent. -/
theorem WellFormed.of_state (state : TransmitState) (wire : t.wire.length ≤ dmxCapacity)
    (queued : ∀ frame, t.queued = some frame → frame.length ≤ dmxCapacity)
    (hs : t.state = state) (other : state ≠ .data) : t.WellFormed :=
  ⟨wire, queued, fun data => absurd (hs.symm.trans data) other⟩

theorem WellFormed.next (h : t.WellFormed) : t.next.length ≤ dmxCapacity := by
  cases queued : t.queued with
  | none => simpa [Transmitter.next, queued] using h.wire
  | some frame => simpa [Transmitter.next, queued] using h.queued frame queued

theorem configure_ok (t : Transmitter) (config : Config) :
    ∃ timing, t.configure config = .ok { t with timing } := by
  obtain ⟨timing, resolved⟩ :=
    Timing.resolve_ok config.breakTime config.markTime config.period t.payload
  rw [configure, Config.timing, resolved]
  exact ⟨timing, rfl⟩

theorem queue_ok (t : Transmitter) {frame : List UInt8} (short : frame.length ≤ dmxCapacity) :
    ∃ timing, t.queue frame = .ok { t with queued := some frame, timing } := by
  obtain ⟨timing, resolved⟩ :=
    t.timing.forPayload_ok { t with queued := some frame }.payload
  rw [queue, if_pos short]
  simp only [resolved]
  exact ⟨timing, rfl⟩

/-- A queued frame fits, and changes nothing but the timing. -/
theorem eq_of_queue {t' : Transmitter} {frame : List UInt8} (queued : t.queue frame = .ok t') :
    frame.length ≤ dmxCapacity ∧ ∃ timing, t' = { t with queued := some frame, timing } := by
  have short : frame.length ≤ dmxCapacity := by
    rw [queue] at queued
    split at queued
    · assumption
    · cases queued
  obtain ⟨timing, queues⟩ := t.queue_ok short
  exact ⟨short, timing, Except.ok.inj (queued.symm.trans queues)⟩

/-- A frame begins with its break, and the queued frame is on the wire. -/
theorem beginFrame_ok (t : Transmitter) (now : Micros) :
    ∃ timing, t.beginFrame now = .ok { t with
      wire := t.next
      queued := none
      timing
      frameStart := now
      state := .lineBreak } := by
  rw [beginFrame, Transmitter.next]
  cases queued : t.queued with
  | none => exact ⟨t.timing, by simp [queued]; rfl⟩
  | some frame =>
      obtain ⟨timing, resolved⟩ := t.timing.forPayload_ok frame.length
      simp only [resolved]
      exact ⟨timing, rfl⟩

/-- The time for the remaining bytes fits its word. -/
theorem WellFormed.catchUpTime (h : t.WellFormed) (state : t.state = .data) :
    ∃ wait, t.catchUpTime = .ok wait := by
  have wire := h.wire
  have slot : slotTime.toNat = 44 := rfl
  rw [Transmitter.catchUpTime, remaining, Checked.sub_of_le (h.sent state)]
  simp only [dmxCapacity] at wire
  have bytes : (t.wire.length - t.sent) * slotTime.toNat ≤ 22572 := by
    rw [slot]
    omega
  exact ⟨_, Checked.word_of_lt (by omega)⟩

theorem WellFormed.powerUp : ({} : Transmitter).WellFormed :=
  ⟨by simp, by simp, by simp⟩

end Transmitter

end Dmx512
