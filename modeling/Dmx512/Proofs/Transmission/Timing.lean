import Dmx512.Proofs.Transmission.Invariant

/-!
# A timing fits its frame

A resolved timing keeps the bounds of break and mark, and its period is no shorter
than the floor of the standard, the requested period and the frame with its break
and mark. A transmitter keeps the timing that is resolved for its longest frame:
whatever queues or begins a frame resolves it anew, and to resolve a resolved timing
changes nothing.
-/

namespace Dmx512

open Standard

namespace Timing

def settings (timing : Timing) : Micros × Micros := (timing.breakTime, timing.markTime)

/-- What a timing was resolved from: the break and the mark behind it, and the period that
was requested. -/
def request (timing : Timing) : (Micros × Micros) × Micros := (timing.settings, timing.requested)

/-- Timings of one request have the same break and mark. -/
theorem settings_eq {timing timing' : Timing} (h : timing.request = timing'.request) :
    timing.settings = timing'.settings :=
  congrArg Prod.fst h

theorem le_clamp {low high : Micros} (value : Micros) (ordered : low ≤ high) :
    low ≤ clamp value low high := by
  rw [clamp]
  split
  · exact UInt32.le_refl low
  · split
    · exact ordered
    · rename_i below _
      exact UInt32.not_lt.mp below

theorem clamp_eq_self {value low high : Micros} (above : low ≤ value) (below : value ≤ high) :
    clamp value low high = value := by
  rw [clamp, if_neg (UInt32.not_lt.mpr above), if_neg (UInt32.not_lt.mpr below)]

@[simp] theorem clampBreak_clampBreak (us : Micros) : clampBreak (clampBreak us) = clampBreak us :=
  clamp_eq_self (le_clamp us (by decide)) (clamp_le (by decide))

@[simp] theorem clampMark_clampMark (us : Micros) : clampMark (clampMark us) = clampMark us :=
  clamp_eq_self (le_clamp us (by decide)) (clamp_le (by decide))

/-- What a timing that is resolved for `payload` bytes keeps to. -/
structure Fits (timing : Timing) (payload : Nat) : Prop where
  breakTime : timing.breakTime ≤ breakMax
  markTime : timing.markTime ≤ markMax
  floor : periodFloor ≤ timing.effective
  requested : timing.requested ≤ timing.effective
  frame : timing.breakTime.toNat + timing.markTime.toNat + 44 * min payload dmxCapacity + 44 ≤
    timing.effective.toNat

/-- A shorter frame fits as well. -/
theorem Fits.mono {timing : Timing} {payload shorter : Nat} (h : timing.Fits payload)
    (le : shorter ≤ payload) : timing.Fits shorter := by
  refine { h with frame := ?_ }
  have longer : min shorter dmxCapacity ≤ min payload dmxCapacity := by omega
  have frame := h.frame
  omega

/-- The greater of two words, as a number. -/
private theorem toNat_max (m n : Micros) : (max m n).toNat = max m.toNat n.toNat := by
  change (if m ≤ n then n else m).toNat = _
  by_cases le : m ≤ n
  · rw [if_pos le]
    exact (Nat.max_eq_right (UInt32.le_iff_toNat_le.mp le)).symm
  · rw [if_neg le]
    have less : ¬ m.toNat ≤ n.toNat := mt UInt32.le_iff_toNat_le.mpr le
    exact (Nat.max_eq_left (by omega)).symm

theorem toNat_minimumPeriod {breakTime markTime minimum : Micros} {payload : Nat}
    (found : minimumPeriod breakTime markTime payload = .ok minimum) :
    minimum.toNat = breakTime.toNat + markTime.toNat + 44 * min payload dmxCapacity + 44 := by
  have slot : slotTime.toNat = 44 := rfl
  rw [minimumPeriod, Checked.word] at found
  split at found
  · rename_i small
    cases found
    rw [UInt32.toNat_ofNat_of_lt' small, slot, Nat.mul_comm 44]
  · cases found

/-- The period in use is the one requested if the minimum allows it, and else the minimum with a
margin; but no less than the floor. -/
theorem toNat_effectivePeriod {requested minimum effective : Micros}
    (found : effectivePeriod requested minimum = .ok effective) :
    effective.toNat = max (if minimum.toNat ≤ requested.toNat then requested.toNat
      else minimum.toNat + latencyMargin.toNat) periodFloor.toNat := by
  rw [effectivePeriod] at found
  split at found
  · rename_i long
    cases found
    rw [toNat_max, if_pos (UInt32.le_iff_toNat_le.mp long)]
  · rename_i short
    obtain ⟨period, sum, rest⟩ := Checked.bind_ok found
    cases rest
    rw [Checked.word] at sum
    split at sum
    · rename_i small
      cases sum
      rw [toNat_max, UInt32.toNat_ofNat_of_lt' small,
        if_neg (mt UInt32.le_iff_toNat_le.mpr short)]
    · cases sum

/-- The period in use reaches the minimum, the request and the floor. -/
theorem effectivePeriod_ge {requested minimum effective : Micros}
    (found : effectivePeriod requested minimum = .ok effective) :
    minimum.toNat ≤ effective.toNat ∧ requested.toNat ≤ effective.toNat ∧
      periodFloor.toNat ≤ effective.toNat := by
  rw [toNat_effectivePeriod found]
  split <;> omega

section Resolved

variable {breakTime markTime requested : Micros} {payload : Nat} {timing : Timing}

/-- What is resolved is clamped, and fits. -/
theorem resolve_fits (resolved : resolve breakTime markTime requested payload = .ok timing) :
    timing.settings = (clampBreak breakTime, clampMark markTime) ∧
      timing.requested = requested ∧ timing.Fits payload := by
  have shortBreak : clampBreak breakTime ≤ breakMax := clamp_le (by decide)
  have shortMark : clampMark markTime ≤ markMax := clamp_le (by decide)
  obtain ⟨minimum, fits, resolved⟩ := Checked.bind_ok resolved
  obtain ⟨effective, found, resolved⟩ := Checked.bind_ok resolved
  cases resolved
  obtain ⟨long, asked, floor⟩ := effectivePeriod_ge found
  have least := toNat_minimumPeriod fits
  refine ⟨rfl, rfl, shortBreak, shortMark, UInt32.le_iff_toNat_le.mpr floor,
    UInt32.le_iff_toNat_le.mpr asked, ?_⟩
  dsimp only
  omega

/-- What is resolved is resolved from its request. -/
theorem resolve_request (resolved : resolve breakTime markTime requested payload = .ok timing) :
    timing.request = ((clampBreak breakTime, clampMark markTime), requested) := by
  obtain ⟨settings, asked, _⟩ := resolve_fits resolved
  exact Prod.ext settings asked

/-- Bounds that are kept already change nothing: to resolve a timing for another frame is to
resolve what it was resolved from. -/
theorem forPayload_of_request
    (request : timing.request = ((clampBreak breakTime, clampMark markTime), requested)) :
    timing.forPayload payload = resolve breakTime markTime requested payload := by
  obtain ⟨settings, asked⟩ := Prod.mk.inj request
  obtain ⟨clampedBreak, clampedMark⟩ := Prod.mk.inj settings
  rw [forPayload, clampedBreak, clampedMark, asked]
  simp only [resolve, clampBreak_clampBreak, clampMark_clampMark]

/-- To resolve a resolved timing anew changes nothing. -/
theorem forPayload_resolved
    (resolved : resolve breakTime markTime requested payload = .ok timing) :
    timing.forPayload payload = .ok timing :=
  (forPayload_of_request (resolve_request resolved)).trans resolved

/-- A timing that was resolved keeps its request for any other frame. -/
theorem request_forPayload {next : Timing} {other : Nat}
    (resolved : resolve breakTime markTime requested payload = .ok timing)
    (again : timing.forPayload other = .ok next) : next.request = timing.request := by
  have request := resolve_request resolved
  rw [forPayload_of_request request] at again
  exact (resolve_request again).trans request.symm

end Resolved

end Timing

namespace Transmitter

variable {t t' : Transmitter}

/-- The timing is the one resolved for the longest frame that the period has to fit. -/
def Timed (t : Transmitter) : Prop := t.timing.forPayload t.payload = .ok t.timing

theorem length_wire_le (t : Transmitter) : t.wire.length ≤ t.payload := by
  rw [payload]
  split
  · exact Nat.le_max_left _ _
  · exact Nat.le_refl _

namespace Timed

/-- The period fits the frame on the wire. -/
theorem fits (h : t.Timed) : t.timing.Fits t.wire.length :=
  (Timing.resolve_fits h).2.2.mono t.length_wire_le

/-- Break and mark are no shorter than they may be. -/
theorem least (h : t.Timed) : breakMin ≤ t.timing.breakTime ∧ markMin ≤ t.timing.markTime := by
  obtain ⟨lineBreak, mark⟩ := Prod.mk.inj (Timing.resolve_fits h).1
  rw [lineBreak, mark]
  exact ⟨Timing.le_clamp _ (by decide), Timing.le_clamp _ (by decide)⟩

theorem congr (h : t.Timed) (timing : t'.timing = t.timing) (wire : t'.wire = t.wire)
    (queued : t'.queued = t.queued) : t'.Timed := by
  have payload : t'.payload = t.payload := by rw [payload, payload, wire, queued]
  rw [Timed, timing, payload]
  exact h

theorem powerUp : ({} : Transmitter).Timed := by
  have full : ({} : Transmitter).payload = dmxCapacity := List.length_replicate
  rw [Timed, full]
  exact Timing.resolve_defaults

theorem configure {config : Config} (configured : t.configure config = .ok t') :
    t'.Timed ∧
      t'.timing.request =
        ((Timing.clampBreak config.breakTime, Timing.clampMark config.markTime),
          config.period) := by
  rw [Transmitter.configure] at configured
  obtain ⟨timing, resolved, same⟩ := Checked.bind_ok configured
  cases same
  exact ⟨Timing.forPayload_resolved resolved, Timing.resolve_request resolved⟩

theorem queue (h : t.Timed) {frame : List UInt8} (queued : t.queue frame = .ok t') :
    t'.Timed ∧ t'.timing.request = t.timing.request := by
  rw [Transmitter.queue] at queued
  split at queued
  · obtain ⟨timing, resolved, same⟩ := Checked.bind_ok queued
    cases same
    exact ⟨Timing.forPayload_resolved resolved, Timing.request_forPayload h resolved⟩
  · cases queued

theorem beginFrame (h : t.Timed) {now : Micros} (begun : t.beginFrame now = .ok t') :
    t'.Timed ∧ t'.timing.request = t.timing.request := by
  rw [Transmitter.beginFrame] at begun
  cases waiting : t.queued with
  | none =>
      rw [waiting] at begun
      cases begun
      exact ⟨h.congr rfl rfl rfl, rfl⟩
  | some frame =>
      rw [waiting] at begun
      obtain ⟨timing, resolved, begins⟩ := Checked.bind_ok begun
      cases begins
      exact ⟨Timing.forPayload_resolved resolved, Timing.request_forPayload h resolved⟩

end Timed

end Transmitter

end Dmx512
