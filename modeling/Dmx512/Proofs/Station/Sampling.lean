import Dmx512.Proofs.Clock
import Dmx512.Station.Sampler
import Mathlib.Algebra.GroupWithZero.Nat
import Mathlib.Data.List.Induction

/-!
# The windows of a sampler

A sampler measures with words that wrap. `windowsOf` measures with numbers that do not: it keeps
the windows that samples have closed, and the moment at which the open one started. Samples tile
time: every window starts where the one before it stopped, so that what they tell adds up to what
passed since the first sample. While no window outgrows the range of a word, a sampler holds what
`windowsOf` keeps.
-/

namespace Dmx512

open Standard

/-- When a sample was taken, and how many packets had been counted by then. -/
structure Moment where
  /-- The time in microseconds. -/
  time : Nat
  /-- The packets. -/
  packets : Nat
  deriving DecidableEq, Repr

/-- Neither the time nor the packets run back from one moment to the other. -/
def Moment.Before (first second : Moment) : Prop :=
  first.time ≤ second.time ∧ first.packets ≤ second.packets

structure Span where
  /-- The sample that opened it. -/
  start : Moment
  /-- The sample that closed it. -/
  stop : Moment
  deriving DecidableEq, Repr

namespace Span

def length (span : Span) : Nat := span.stop.time - span.start.time

def packets (span : Span) : Nat := span.stop.packets - span.start.packets

def rate (span : Span) : Nat := 1000000 * span.packets / span.length

/-- What a window measures is in the range of a word. -/
def Fits (span : Span) : Prop := span.length < 4294967296 ∧ span.packets < 4294967296

instance : DecidablePred Fits := fun _ => inferInstanceAs (Decidable (_ ∧ _))

end Span

structure Windows where
  /-- The windows that were closed, oldest first. -/
  closed : List Span := []
  /-- The sample that opened the one that is open. -/
  opened : Option Moment := none
  deriving DecidableEq, Repr

namespace Windows

/-- Take a sample: the first one opens a window, and one that finds the window a second old closes
it and opens the next. -/
def sample (windows : Windows) (now : Moment) : Windows :=
  match windows.opened with
  | none => { windows with opened := some now }
  | some start =>
    if start.time + 1000000 ≤ now.time then
      { closed := windows.closed ++ [⟨start, now⟩], opened := some now }
    else
      windows

/-- The rate of the last closed window; none before one is closed. -/
def rate (windows : Windows) : Nat := (windows.closed.getLast?.map Span.rate).getD 0

end Windows

def windowsOf (moments : List Moment) : Windows := moments.foldl Windows.sample {}

theorem windowsOf_concat (moments : List Moment) (now : Moment) :
    windowsOf (moments ++ [now]) = (windowsOf moments).sample now := by
  rw [windowsOf, List.foldl_append]
  rfl

namespace Windows

variable {windows : Windows} {now start : Moment}

theorem sample_of_young (opened : windows.opened = some start)
    (young : now.time < start.time + 1000000) : windows.sample now = windows := by
  simp only [sample, opened, if_neg (Nat.not_le.mpr young)]

theorem sample_of_old (opened : windows.opened = some start)
    (old : start.time + 1000000 ≤ now.time) :
    windows.sample now = { closed := windows.closed ++ [⟨start, now⟩], opened := some now } := by
  simp only [sample, opened, if_pos old]

/-- A sample closes at most one window, and opens no closed one again. -/
theorem closed_prefix_sample (windows : Windows) (now : Moment) :
    windows.closed <+: (windows.sample now).closed := by
  rw [sample]
  split
  · exact List.prefix_rfl
  · split
    · exact List.prefix_append _ _
    · exact List.prefix_rfl

/-- A sample leaves the window that is open, or opens one. -/
theorem opened_sample (windows : Windows) (now : Moment) :
    (windows.sample now).opened = windows.opened ∨ (windows.sample now).opened = some now := by
  rw [sample]
  split
  · exact .inr rfl
  · split
    · exact .inr rfl
    · exact .inl rfl

end Windows

/-- Windows that were closed stay so. -/
theorem closed_prefix_append (moments more : List Moment) :
    (windowsOf moments).closed <+: (windowsOf (moments ++ more)).closed := by
  induction more using List.reverseRecOn with
  | nil => simp
  | append_singleton more now ih =>
      rw [← List.append_assoc, windowsOf_concat]
      exact ih.trans (Windows.closed_prefix_sample _ now)

/-- The open window started with one of the samples. -/
theorem mem_of_opened {moments : List Moment} {start : Moment}
    (opened : (windowsOf moments).opened = some start) : start ∈ moments := by
  induction moments using List.reverseRecOn with
  | nil => cases opened
  | append_singleton moments now ih =>
      rw [windowsOf_concat] at opened
      rcases Windows.opened_sample _ _ with same | new
      · exact List.mem_append_left _ (ih (same ▸ opened))
      · obtain rfl := Option.some.inj (new.symm.trans opened)
        exact List.mem_append_right _ (List.mem_singleton.mpr rfl)

/-- What the windows behind a first sample amount to, where the open one started with `opened`:
every window starts where the one before it stopped and lasts for a second at least, so that the
times and the packets of the closed ones add up to what passed until the open one started. -/
structure Windows.Tile (windows : Windows) (first opened : Moment) : Prop where
  opens : windows.opened = some opened
  starts : windows.closed.map Span.start ++ [opened] = first :: windows.closed.map Span.stop
  seconds : ∀ span ∈ windows.closed, 1000000 ≤ span.length
  time : first.time + (windows.closed.map Span.length).sum = opened.time
  packets : first.packets + (windows.closed.map Span.packets).sum = opened.packets

/-- What a further window measures is added. -/
theorem Span.sum_concat (measure : Span → Nat) (closed : List Span) (span : Span) :
    ((closed ++ [span]).map measure).sum = (closed.map measure).sum + measure span := by
  rw [List.map_append, List.sum_append, List.map_singleton, List.sum_singleton]

/-- Closing the open window keeps the tiling, up to the sample that closes it. -/
theorem Windows.Tile.close {windows : Windows} {first opened now : Moment}
    (h : windows.Tile first opened) (before : opened.Before now)
    (old : opened.time + 1000000 ≤ now.time) : (windows.sample now).Tile first now := by
  rw [sample_of_old h.opens old]
  refine ⟨rfl, ?_, List.forall_mem_append.mpr ⟨h.seconds, ?_⟩, ?_, ?_⟩
  · rw [List.map_append, List.map_append, List.map_singleton, List.map_singleton, h.starts]
    rfl
  · rw [List.forall_mem_singleton]
    simp only [Span.length]
    omega
  · have time := h.time
    have later := before.1
    simp only [Span.sum_concat, Span.length]
    omega
  · have packets := h.packets
    have more := before.2
    simp only [Span.sum_concat, Span.packets]
    omega

/-- The windows of any samples tile the time since the first of them. -/
theorem exists_tile {first : Moment} {rest : List Moment}
    (ordered : (first :: rest).Pairwise Moment.Before) :
    ∃ opened ∈ first :: rest, (windowsOf (first :: rest)).Tile first opened := by
  induction rest using List.reverseRecOn with
  | nil => exact ⟨first, List.mem_singleton.mpr rfl, rfl, rfl, nofun, rfl, rfl⟩
  | append_singleton rest now ih =>
      rw [← List.cons_append] at ordered ⊢
      obtain ⟨earlier, _, before⟩ := List.pairwise_append.mp ordered
      obtain ⟨opened, among, tile⟩ := ih earlier
      rw [windowsOf_concat]
      by_cases old : opened.time + 1000000 ≤ now.time
      · exact ⟨now, List.mem_append_right _ (List.mem_singleton.mpr rfl),
          tile.close (before _ among _ (List.mem_singleton.mpr rfl)) old⟩
      · rw [Windows.sample_of_young tile.opens (Nat.not_le.mp old)]
        exact ⟨opened, List.mem_append_left _ among, tile⟩

namespace Sampler

/-- What a sampler notes of the moment at which a window starts: words that wrap. -/
def noted (start : Moment) : Window :=
  { start := UInt32.ofNat start.time, packets := UInt32.ofNat start.packets }

/-- A sampler has noted where the open window started, and it knows the rate of the last one. -/
structure Holds (view : Sampler) (windows : Windows) : Prop where
  window : view.window = windows.opened.map noted
  rate : view.rate.toNat = windows.rate

/-- A difference of words is exact while it is in their range. -/
theorem toNat_ofNat_sub {m n : Nat} (le : n ≤ m) (fits : m - n < 4294967296) :
    (UInt32.ofNat m - UInt32.ofNat n).toNat = m - n := by
  rw [UInt32.toNat_sub, UInt32.toNat_ofNat', UInt32.toNat_ofNat']
  omega

/-- The rate over a second or more is exact, and no greater than the count. -/
theorem rateOf_eq (packets : UInt32) {interval : UInt32} (second : 1000000 ≤ interval.toNat) :
    ∃ rate, rateOf packets interval = .ok rate ∧
      rate.toNat = 1000000 * packets.toNat / interval.toNat := by
  have million : (1000000 : UInt64).toNat = 1000000 := rfl
  have bound : packets.toNat < 4294967296 := packets.toNat_lt
  have fits : packets.toUInt64.toNat * (1000000 : UInt64).toNat < 18446744073709551616 := by
    rw [million, UInt32.toNat_toUInt64]
    omega
  have divisor : interval.toUInt64 ≠ 0 := by
    intro zero
    have none : interval.toNat = 0 := by simpa using congrArg UInt64.toNat zero
    omega
  have scaled : (packets.toUInt64 * 1000000).toNat = 1000000 * packets.toNat := by
    rw [UInt64.toNat_mul, Nat.mod_eq_of_lt fits, UInt32.toNat_toUInt64, million, Nat.mul_comm]
  have quotient : (packets.toUInt64 * 1000000 / interval.toUInt64).toNat =
      1000000 * packets.toNat / interval.toNat := by
    rw [UInt64.toNat_div, scaled, UInt32.toNat_toUInt64]
  -- A second is as many microseconds as the count is scaled by, so the quotient is no greater.
  have least : 1000000 * packets.toNat / interval.toNat ≤ packets.toNat :=
    Nat.div_le_of_le_mul (Nat.mul_le_mul_right _ second)
  refine ⟨(packets.toUInt64 * 1000000 / interval.toUInt64).toUInt32, ?_, ?_⟩
  · rw [rateOf, Checked.mulLong_of_lt fits, Checked.ok_bind, Checked.divLong_of_ne_zero divisor]
    rfl
  · rw [UInt64.toNat_toUInt32, quotient]
    exact Nat.mod_eq_of_lt (Nat.lt_of_le_of_lt least bound)

/-- A window that is younger than a second stays open. -/
theorem sample_within {view : Sampler} {window : Window} (opened : view.window = some window)
    {now : Micros} (young : (elapsed now window.start).toNat < 1000000) (counters : Counters) :
    view.sample counters now = .ok view := by
  have early : ¬ elapsed now window.start ≥ sampleWindow := by
    have second : sampleWindow.toNat = 1000000 := rfl
    rw [ge_iff_le, UInt32.le_iff_toNat_le, second]
    omega
  simp only [sample, opened, if_neg early]
  rfl

/-- A window that is a second old is closed, and the next one opened. -/
theorem sample_closes {view : Sampler} {window : Window} (opened : view.window = some window)
    {now : Micros} (old : 1000000 ≤ (elapsed now window.start).toNat) (counters : Counters) :
    ∃ rate, view.sample counters now = .ok { view with
        window := some { start := now, packets := counters.dmxPackets }, rate } ∧
      rate.toNat = 1000000 * (counters.dmxPackets - window.packets).toNat /
        (elapsed now window.start).toNat := by
  have late : elapsed now window.start ≥ sampleWindow := by
    have second : sampleWindow.toNat = 1000000 := rfl
    rw [ge_iff_le, UInt32.le_iff_toNat_le, second]
    exact old
  obtain ⟨rate, rated, value⟩ := rateOf_eq (counters.dmxPackets - window.packets) old
  refine ⟨rate, ?_, value⟩
  simp only [sample, opened, if_pos late, rated]
  rfl

/-- While the windows that it closes are in the range of a word, a sampler goes on to hold its
windows. -/
theorem Holds.sample {view view' : Sampler} {windows : Windows} {counters : Counters}
    {now : Moment} (h : view.Holds windows)
    (before : ∀ start ∈ windows.opened, start.Before now)
    (fits : ∀ span ∈ (windows.sample now).closed, span.Fits)
    (counted : counters.dmxPackets = UInt32.ofNat now.packets)
    (ended : view.sample counters (UInt32.ofNat now.time) = .ok view') :
    view'.Holds (windows.sample now) := by
  have opened := h.window
  cases start? : windows.opened with
  | none =>
      rw [start?, Option.map_none] at opened
      simp only [Sampler.sample, opened] at ended
      cases ended
      rw [Windows.sample, start?, counted]
      exact ⟨rfl, h.rate⟩
  | some start =>
      rw [start?, Option.map_some] at opened
      have later : start.Before now := before start start?
      by_cases old : start.time + 1000000 ≤ now.time
      · rw [Windows.sample_of_old start? old] at fits ⊢
        obtain ⟨short, few⟩ := fits ⟨start, now⟩ (List.mem_append_right _ (by simp))
        have age : (elapsed (UInt32.ofNat now.time) (noted start).start).toNat =
            now.time - start.time := toNat_ofNat_sub later.1 short
        have count : (counters.dmxPackets - (noted start).packets).toNat =
            now.packets - start.packets := counted ▸ toNat_ofNat_sub later.2 few
        obtain ⟨rate, closed, value⟩ := sample_closes opened (by rw [age]; omega) counters
        cases ended.symm.trans closed
        refine ⟨by rw [counted]; rfl, ?_⟩
        rw [value, age, count, Windows.rate, List.getLast?_concat]
        rfl
      · have age : (elapsed (UInt32.ofNat now.time) (noted start).start).toNat =
            now.time - start.time := toNat_ofNat_sub later.1 (by omega)
        have within := sample_within opened (by rw [age]; omega) counters
        cases ended.symm.trans within
        rw [Windows.sample_of_young start? (Nat.not_le.mp old)]
        exact h

end Sampler

end Dmx512
