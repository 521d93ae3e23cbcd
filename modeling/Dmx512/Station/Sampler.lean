import Dmx512.Link.Basic

/-!
# The sampler of a station

A station looks at the counters of its link through a sampler: it subtracts the
values at the last reset and derives a rate of packets per second from windows
of at least one second. The first sample opens a window; a sample that finds
the window at least one second old closes it, computes the rate over its whole
length and opens the next one.
-/

namespace Dmx512

open Standard

/-- The counters as one station sees them. -/
structure Snapshot where
  /-- DMX packets since the last reset. -/
  dmxPackets : UInt32
  /-- RDM packets since the last reset. -/
  rdmPackets : UInt32
  updatesPerSecond : UInt32
  breakToBreak : Micros
  slotToSlot : Micros
  slotsInPacket : UInt16
  rdmReceiveEnd : Micros
  transmitOverruns : UInt32
  deriving DecidableEq, Repr

structure Window where
  /-- The time of its first sample. -/
  start : Micros
  /-- The packet count at its start. -/
  packets : UInt32
  deriving DecidableEq, Repr

/-- A station's view of the counters. -/
structure Sampler where
  /-- The DMX packet count at the last reset. -/
  dmxBaseline : UInt32 := 0
  /-- The RDM packet count at the last reset. -/
  rdmBaseline : UInt32 := 0
  window : Option Window := none
  /-- The rate over the last closed window. -/
  rate : UInt32 := 0
  deriving DecidableEq, Repr

namespace Sampler

def reset (view : Sampler) (counters : Counters) : Sampler :=
  { view with dmxBaseline := counters.dmxPackets, rdmBaseline := counters.rdmPackets }

/-- The whole packets per second of `packets` in `interval`. -/
def rateOf (packets interval : UInt32) : Checked UInt32 := do
  let scaled ← Checked.mulLong packets.toUInt64 1000000
  pure (← Checked.divLong scaled interval.toUInt64).toUInt32

def sample (view : Sampler) (counters : Counters) (now : Micros) : Checked Sampler :=
  let opened : Window := { start := now, packets := counters.dmxPackets }
  match view.window with
  | none => pure { view with window := some opened }
  | some window =>
    let age := elapsed now window.start
    if age ≥ sampleWindow then do
      let rate ← rateOf (counters.dmxPackets - window.packets) age
      pure { view with window := some opened, rate }
    else
      pure view

/-- The counters since the last reset, with the rate the view holds. -/
def snapshot (view : Sampler) (counters : Counters) : Snapshot where
  dmxPackets := counters.dmxPackets - view.dmxBaseline
  rdmPackets := counters.rdmPackets - view.rdmBaseline
  updatesPerSecond := view.rate
  breakToBreak := counters.breakToBreak
  slotToSlot := counters.slotToSlot
  slotsInPacket := counters.slotsInPacket
  rdmReceiveEnd := counters.rdmReceiveEnd
  transmitOverruns := counters.transmitOverruns

/-- Any count has a rate over any interval but the empty one. -/
theorem rateOf_ok (packets : UInt32) {interval : UInt32} (passed : interval ≠ 0) :
    ∃ rate, rateOf packets interval = .ok rate := by
  have fits : packets.toUInt64.toNat * (1000000 : UInt64).toNat < 0x10000000000000000 := by
    have bound := packets.toNat_lt
    simp only [UInt32.toNat_toUInt64, UInt64.toNat_ofNat]
    omega
  have divisor : interval.toUInt64 ≠ 0 := by
    intro zero
    have none : interval.toNat = 0 := by
      simpa using congrArg UInt64.toNat zero
    exact passed (UInt32.toNat_inj.mp none)
  rw [rateOf, Checked.mulLong_of_lt fits, Checked.ok_bind, Checked.divLong_of_ne_zero divisor]
  exact ⟨_, rfl⟩

/-- A sample can be taken at any time: a window that closes has lasted. -/
theorem sample_ok (view : Sampler) (counters : Counters) (now : Micros) :
    ∃ view', view.sample counters now = .ok view' := by
  rw [sample]
  split
  · exact ⟨_, rfl⟩
  · rename_i window _
    dsimp only
    split
    · rename_i old
      have passed : elapsed now window.start ≠ 0 := by
        intro none
        rw [none] at old
        exact absurd old (by decide)
      obtain ⟨rate, rated⟩ := rateOf_ok (counters.dmxPackets - window.packets) passed
      rw [rated]
      exact ⟨_, rfl⟩
    · exact ⟨_, rfl⟩

end Sampler

end Dmx512
