import Dmx512.Proofs.Transmission.Timing

/-!
# The timing policy

A timing is resolved whatever is requested and however long the frame is. Its period is the least
that the floor of the standard, the request and the frame with its break and mark allow, or a
margin of at most four microseconds above that; a longer frame never has a shorter one. To resolve
a timing again and again for other frames is to resolve what was requested for the last of them.
-/

namespace Dmx512.Timing

open Standard

/-- How long a frame of `payload` bytes takes with this break and mark, and one slot more. -/
def frameTime (timing : Timing) (payload : Nat) : Nat :=
  timing.breakTime.toNat + timing.markTime.toNat + 44 * min payload dmxCapacity + 44

/-- The least period that the floor, the request and a frame of `payload` bytes allow. -/
def leastPeriod (timing : Timing) (payload : Nat) : Nat :=
  max periodFloor.toNat (max timing.requested.toNat (timing.frameTime payload))

theorem frameTime_mono {timing timing' : Timing} (settings : timing.settings = timing'.settings)
    {payload longer : Nat} (le : payload ≤ longer) :
    timing.frameTime payload ≤ timing'.frameTime longer := by
  obtain ⟨breakTime, markTime⟩ := Prod.mk.inj settings
  rw [frameTime, frameTime, breakTime, markTime]
  have capped : min payload dmxCapacity ≤ min longer dmxCapacity := by omega
  omega

section Resolved

variable {breakTime markTime requested : Micros} {payload longer : Nat} {timing next : Timing}

theorem toNat_effective (resolved : resolve breakTime markTime requested payload = .ok timing) :
    timing.effective.toNat = max (if timing.frameTime payload ≤ timing.requested.toNat then
      timing.requested.toNat else timing.frameTime payload + latencyMargin.toNat)
        periodFloor.toNat := by
  obtain ⟨minimum, fits, resolved⟩ := Checked.bind_ok resolved
  obtain ⟨effective, found, resolved⟩ := Checked.bind_ok resolved
  cases resolved
  rw [toNat_effectivePeriod found, toNat_minimumPeriod fits]
  rfl

/-- The period is the least that is allowed, or a margin above. -/
theorem effective_within (resolved : resolve breakTime markTime requested payload = .ok timing) :
    timing.leastPeriod payload ≤ timing.effective.toNat ∧
      timing.effective.toNat ≤ timing.leastPeriod payload + latencyMargin.toNat := by
  rw [toNat_effective resolved, leastPeriod]
  split <;> omega

/-- A request that the frame and the floor allow is kept. -/
theorem effective_eq_requested
    (resolved : resolve breakTime markTime requested payload = .ok timing)
    (frame : timing.frameTime payload ≤ timing.requested.toNat)
    (floor : periodFloor ≤ timing.requested) : timing.effective = timing.requested := by
  apply UInt32.toNat_inj.mp
  rw [toNat_effective resolved, if_pos frame]
  exact Nat.max_eq_left (UInt32.le_iff_toNat_le.mp floor)

/-- A longer frame has no shorter period. -/
theorem effective_mono (resolved : resolve breakTime markTime requested payload = .ok timing)
    (resolved' : resolve breakTime markTime requested longer = .ok next) (le : payload ≤ longer) :
    timing.effective ≤ next.effective := by
  have request := (resolve_request resolved).trans (resolve_request resolved').symm
  have frames := frameTime_mono (settings_eq request) le
  have same : timing.requested = next.requested := congrArg Prod.snd request
  rw [UInt32.le_iff_toNat_le, toNat_effective resolved, toNat_effective resolved', same]
  split <;> split <;> omega

/-- Only the last frame of a chain matters. -/
theorem foldlM_forPayload (resolved : resolve breakTime markTime requested payload = .ok timing)
    (payloads : List Nat) : payloads.foldlM forPayload timing =
      resolve breakTime markTime requested (payloads.getLastD payload) := by
  induction payloads generalizing payload timing with
  | nil => exact resolved.symm
  | cons following rest ih =>
      obtain ⟨next, resolved'⟩ := resolve_ok breakTime markTime requested following
      rw [List.foldlM_cons, forPayload_of_request (resolve_request resolved), resolved',
        Checked.ok_bind, ih resolved', List.getLastD_cons]

/-- Break and mark are within their bounds, and as requested where the request is. -/
theorem settings_within (resolved : resolve breakTime markTime requested payload = .ok timing) :
    (breakMin ≤ timing.breakTime ∧ timing.breakTime ≤ breakMax) ∧
      (markMin ≤ timing.markTime ∧ timing.markTime ≤ markMax) ∧
      (breakMin ≤ breakTime → breakTime ≤ breakMax → timing.breakTime = breakTime) ∧
      (markMin ≤ markTime → markTime ≤ markMax → timing.markTime = markTime) := by
  obtain ⟨settings, _⟩ := resolve_fits resolved
  obtain ⟨clampedBreak, clampedMark⟩ := Prod.mk.inj settings
  rw [clampedBreak, clampedMark]
  exact ⟨⟨le_clamp breakTime (by decide), clamp_le (by decide)⟩,
    ⟨le_clamp markTime (by decide), clamp_le (by decide)⟩, clamp_eq_self, clamp_eq_self⟩

/-- The timing policy. Whatever is requested, a timing is resolved for frames of any length, without
a sum that leaves its word. Its break and mark are within their bounds, and as requested where the
request is. Its period is no shorter than the floor, the request and the frame with its break and
mark, and at most a margin of 4 us longer than the longest of these; it is the request where that
is no shorter than the other two, and no shorter for a longer frame. However often the timing is
resolved anew for other frames, it is the one requested for the last of them. -/
theorem resolves_policy (breakTime markTime requested : Micros) (payload : Nat) :
    ∃ timing, resolve breakTime markTime requested payload = .ok timing ∧
      timing.requested = requested ∧
      (breakMin ≤ timing.breakTime ∧ timing.breakTime ≤ breakMax) ∧
      (markMin ≤ timing.markTime ∧ timing.markTime ≤ markMax) ∧
      (breakMin ≤ breakTime → breakTime ≤ breakMax → timing.breakTime = breakTime) ∧
      (markMin ≤ markTime → markTime ≤ markMax → timing.markTime = markTime) ∧
      timing.leastPeriod payload ≤ timing.effective.toNat ∧
      timing.effective.toNat ≤ timing.leastPeriod payload + 4 ∧
      (timing.frameTime payload ≤ requested.toNat → periodFloor ≤ requested →
        timing.effective = requested) ∧
      (∀ longer next, payload ≤ longer → resolve breakTime markTime requested longer = .ok next →
        timing.effective ≤ next.effective) ∧
      ∀ payloads : List Nat, payloads.foldlM forPayload timing =
        resolve breakTime markTime requested (payloads.getLastD payload) := by
  obtain ⟨timing, resolved⟩ := resolve_ok breakTime markTime requested payload
  obtain ⟨breakBounds, markBounds, keepsBreak, keepsMark⟩ := settings_within resolved
  obtain ⟨least, most⟩ := effective_within resolved
  obtain rfl : timing.requested = requested := (resolve_fits resolved).2.1
  exact ⟨timing, resolved, rfl, breakBounds, markBounds, keepsBreak, keepsMark, least, most,
    effective_eq_requested resolved,
    fun longer next le resolved' => effective_mono resolved resolved' le,
    foldlM_forPayload resolved⟩

/-- The shortest period is asked for, with a break that is too short and a mark that is too long,
for more than a full frame; then for a start code, a full frame and four slots. Just what a full
frame takes is asked for, and kept. -/
theorem resolves_policy_shortest :
    resolve 0 2000000 0 600 = .ok ⟨92, 1000000, 0, 1022712⟩ ∧
      [1, 513, 5].foldlM forPayload ⟨92, 1000000, 0, 1022712⟩ = .ok ⟨92, 1000000, 0, 1000360⟩ ∧
      ∃ timing, resolve 176 16 22808 513 = .ok timing ∧ timing.frameTime 513 = 22808 ∧
        timing.effective = 22808 := by
  have found : resolve 0 2000000 0 600 = .ok ⟨92, 1000000, 0, 1022712⟩ := by rfl
  obtain ⟨timing, resolved, _, _, _, _, _, _, _, _, _, chain⟩ := resolves_policy 0 2000000 0 600
  obtain rfl := Except.ok.inj (resolved.symm.trans found)
  obtain ⟨full, resolved', _, _, _, keepsBreak, keepsMark, _, _, keeps, _⟩ :=
    resolves_policy 176 16 22808 513
  have takes : full.frameTime 513 = 22808 := by
    rw [frameTime, keepsBreak (by decide) (by decide), keepsMark (by decide) (by decide)]
    rfl
  exact ⟨found, (chain [1, 513, 5]).trans rfl, full, resolved', takes,
    keeps (Nat.le_of_eq takes) (by decide)⟩

end Resolved

end Dmx512.Timing
