import Dmx512.Proofs.Clock
import Dmx512.Proofs.Link.Sound
import Dmx512.Proofs.Transmission.Timing

/-!
# Services of the transmit alarm

A transmit sequence moves on by the services of its alarm. A `Service` tells when it
came, what it found and what it left; what one service leaves, the next one finds, but
for what a transmitter drifts by in between: bytes that go on, frames that are queued
and periods that are set.

Three services make the break, the mark and the bytes of a frame, and the next one
comes a period after the first.
-/

namespace Dmx512

open Standard

namespace Transmitter

variable {t t' u : Transmitter} {entries : Journal} {now : Micros} {next : Option Micros}

theorem Advances.timed (h : t.Advances now entries t' next) (timed : t.Timed) :
    t'.Timed ∧ t'.timing.request = t.timing.request := by
  cases h with
  | lineBreak _ _ _ begun => exact timed.beginFrame begun
  | rest | mark | whole | part | overrun => exact ⟨timed.congr rfl rfl rfl, rfl⟩

theorem Continues.timed (h : t.Continues entries t') (timed : t.Timed) :
    t'.Timed ∧ t'.timing.request = t.timing.request := by
  cases h with
  | whole | part => exact ⟨timed.congr rfl rfl rfl, rfl⟩

/-- A sequence that goes on sets its next alarm. -/
theorem Advances.exists_next (h : t.Advances now entries t' next) (goesOn : t.stopping = false) :
    ∃ deadline, next = some deadline := by
  cases h with
  | rest _ last =>
      rw [goesOn] at last
      contradiction
  | lineBreak | mark | whole | part | overrun => exact ⟨_, rfl⟩

/-- The break of a frame, or the mark behind it, is on the line. -/
def IsFraming (t : Transmitter) : Prop := t.state = .lineBreak ∨ t.state = .markAfterBreak

instance (t : Transmitter) : Decidable t.IsFraming :=
  inferInstanceAs (Decidable (_ ∨ _))

/-- What becomes of a transmitter between two alarms. Where the settings are `held`,
break and mark stay as they are while either is on the line. -/
structure Drifts (held : Prop) (t t' : Transmitter) : Prop where
  wire : t'.wire = t.wire
  frameStart : t'.frameStart = t.frameStart
  state : t'.state = t.state ∨ t.state = .data ∧ t'.state = .interPacket
  settings : held → t.IsFraming → t'.timing.settings = t.timing.settings

namespace Drifts

variable {held : Prop}

theorem refl (t : Transmitter) : Drifts held t t := ⟨rfl, rfl, .inl rfl, fun _ _ => rfl⟩

theorem framing (h : Drifts held t t') (framing : t.IsFraming) : t'.state = t.state := by
  rcases h.state with same | ⟨data, _⟩
  · exact same
  · rcases framing with state | state <;> simp [state] at data

theorem trans (first : Drifts held t t') (second : Drifts held t' u) : Drifts held t u := by
  refine ⟨second.wire.trans first.wire, second.frameStart.trans first.frameStart, ?_, ?_⟩
  · rcases first.state with same | ⟨data, between⟩
    · rw [← same]
      exact second.state
    · rcases second.state with same | ⟨data', _⟩
      · exact .inr ⟨data, same.trans between⟩
      · simp [between] at data'
  · intro holds framing
    have framing' : t'.IsFraming := by
      rw [IsFraming, first.framing framing]
      exact framing
    exact (second.settings holds framing').trans (first.settings holds framing)

theorem mono {held' : Prop} (h : Drifts held t t') (imp : held' → held) : Drifts held' t t' :=
  { h with settings := fun holds => h.settings (imp holds) }

end Drifts

end Transmitter

/-- One service of the transmit alarm, of a sequence that goes on. -/
structure Service where
  time : Micros
  /-- The transmitter as it was found. -/
  before : Transmitter
  /-- What the service entered into the journal behind its own entry, newest first. -/
  entries : Journal
  /-- The transmitter as it was left. -/
  after : Transmitter
  /-- The deadline of the next alarm. -/
  next : Micros
  wellFormed : before.WellFormed
  timed : before.Timed
  advances : before.Advances time entries after (some next)

namespace Service

variable {held : Prop} {a b c d : Service}

def BeginsFrame (a : Service) : Prop := ∃ time, a.entries = [⟨time, .order (.setBreak true)⟩]

def EndsBreak (a : Service) : Prop := ∃ time, a.entries = [⟨time, .order (.setBreak false)⟩]

/-- The service looked at the interface, and handed the byte to it if it had room. -/
def Offers (a : Service) (byte : UInt8) : Prop :=
  ∃ looked status,
    (status.txReady = true ∧ ∃ later written, a.entries =
      later ++ [⟨written, .order (.write byte)⟩, ⟨looked, .sampled status⟩]) ∨
    (status.txReady = false ∧ ∃ time, a.entries =
      [⟨time, .order (.allowTransmit true)⟩, ⟨looked, .sampled status⟩])

/-- The alarm that was served: when, and in which phase of the sequence. -/
def alarm (a : Service) : Micros × TransmitState := (a.time, a.before.state)

def left (a : Service) : Nat := a.before.wire.length - a.before.sent

/-- A frame is behind the service, or none was begun: it begins the next. -/
theorem beginsFrame_of_between
    (between : a.before.state = .idle ∨ a.before.state = .interPacket) : a.BeginsFrame := by
  obtain ⟨time, before, entries, after, next, _, _, advances⟩ := a
  dsimp only at between
  cases advances with
  | lineBreak time => exact ⟨time, rfl⟩
  | mark _ phase | whole phase | part _ phase | overrun phase => simp [phase] at between

/-- Only a service that begins a frame puts a break on the line. -/
theorem beginsFrame_of_mem {entry : Entry} (mem : entry ∈ a.entries)
    (begins : entry.event = .order (.setBreak true)) : a.BeginsFrame := by
  obtain ⟨time, before, entries, after, next, _, _, advances⟩ := a
  dsimp only at mem
  have plain (hands : entries.Lacks .lineBreak) : False :=
    hands entry mem (by rw [begins]; rfl)
  cases advances with
  | lineBreak time => exact ⟨time, rfl⟩
  | mark =>
      obtain rfl := List.mem_singleton.mp mem
      cases begins
  | whole _ hands => exact (plain (hands.lacks (by decide))).elim
  | part _ _ _ hands => exact (plain (.cons (by simp [Event.topic]) (hands.lacks (by decide)))).elim
  | overrun => cases mem

theorem BeginsFrame.after (begins : a.BeginsFrame) :
    a.after.state = .lineBreak ∧ a.after.frameStart = a.time ∧
      a.next = a.time + a.after.timing.breakTime := by
  obtain ⟨time, before, entries, after, next, _, _, advances⟩ := a
  obtain ⟨began, same⟩ := begins
  dsimp only at same advances ⊢
  cases advances with
  | lineBreak _ _ _ begun =>
      obtain ⟨timing, begins⟩ := before.beginFrame_ok time
      cases begins.symm.trans begun
      exact ⟨rfl, rfl, rfl⟩
  | mark | part => simp at same
  | whole _ hands =>
      have mem : ⟨began, .order (.setBreak true)⟩ ∈ entries := same ▸ List.mem_cons_self
      have lacks : entries.Lacks .lineBreak := hands.lacks (by decide)
      exact absurd rfl (lacks _ mem)
  | overrun => cases same

theorem endsBreak_of_lineBreak (phase : b.before.state = .lineBreak) :
    b.EndsBreak ∧ b.after = { b.before with state := .markAfterBreak } ∧
      b.next = b.time + b.before.timing.markTime := by
  obtain ⟨time, before, entries, after, next, _, _, advances⟩ := b
  dsimp only at phase advances ⊢
  cases advances with
  | mark time => exact ⟨⟨time, rfl⟩, rfl, rfl⟩
  | lineBreak _ between => rcases between with state | state <;> simp [state] at phase
  | whole other | part _ other | overrun other => simp [other] at phase

/-- The bytes begin at the end of the mark, and the next alarm is set by the beginning
of the frame. -/
theorem data_of_markAfterBreak (phase : c.before.state = .markAfterBreak) :
    (∀ byte rest, c.before.wire = byte :: rest → c.Offers byte) ∧
      c.next = c.before.frameStart + c.before.timing.effective ∧
      c.after.wire = c.before.wire ∧
      (c.after.state = .data ∨ c.after.state = .interPacket) := by
  obtain ⟨time, before, entries, after, next, _, _, advances⟩ := c
  dsimp only at phase advances ⊢
  cases advances with
  | whole _ hands =>
      refine ⟨fun byte rest wire => ?_, rfl, rfl, .inr rfl⟩
      rw [wire] at hands
      cases hands with
      | write _ _ looked written room => exact ⟨looked, _, .inl ⟨room, _, written, rfl⟩⟩
  | @part _ count time _ short hands full =>
      refine ⟨fun byte rest wire => ?_, rfl, rfl, .inl rfl⟩
      rw [wire] at hands
      cases count with
      | zero =>
          cases hands with
          | nil =>
              obtain ⟨_, _, _, same, _⟩ := full
              cases same
          | full looked noRoom => exact ⟨looked, _, .inr ⟨noRoom, time, rfl⟩⟩
      | succ count =>
          cases hands with
          | write _ _ looked written room =>
              exact ⟨looked, _,
                .inl ⟨room, ⟨time, .order (.allowTransmit true)⟩ :: _, written, rfl⟩⟩
  | mark _ other | overrun other => simp [other] at phase
  | lineBreak _ between => rcases between with state | state <;> simp [state] at phase

/-- A service that finds bytes waiting does nothing, and comes again once they may be
out. -/
theorem late_of_data (phase : d.before.state = .data) :
    d.entries = [] ∧ d.next = d.time + UInt32.ofNat (44 * d.left + 44) := by
  have sent := d.wellFormed.sent phase
  rw [left]
  obtain ⟨time, before, entries, after, next, _, _, advances⟩ := d
  dsimp only at phase sent advances ⊢
  cases advances with
  | @overrun wait _ later =>
      rw [Transmitter.catchUpTime, Transmitter.remaining, Checked.sub_of_le sent] at later
      change Checked.word _ = _ at later
      rw [Checked.word] at later
      split at later
      · cases later
        have slot : slotTime.toNat = 44 := rfl
        rw [slot, Nat.mul_comm]
        exact ⟨rfl, rfl⟩
      · cases later
  | mark _ other | whole other | part _ other => simp [other] at phase
  | lineBreak _ between => rcases between with state | state <;> simp [state] at phase

/-- A service follows another: it came when that one had set the alarm to, and found what
that one left. -/
structure Follows (held : Prop) (a b : Service) : Prop where
  drifts : a.after.Drifts held b.before
  time : b.time = a.next

namespace Follows

/-- A frame is begun: the service behind takes its break off the line. -/
theorem released (ab : a.Follows held b) (begins : a.BeginsFrame) :
    b.before.state = .lineBreak ∧ b.time = a.time + a.after.timing.breakTime ∧ b.EndsBreak := by
  obtain ⟨state, _, next⟩ := begins.after
  have phase : b.before.state = .lineBreak := (ab.drifts.framing (.inl state)).trans state
  exact ⟨phase, ab.time.trans next, (endsBreak_of_lineBreak phase).1⟩

/-- The break is off the line: the service behind begins the bytes. -/
theorem marked (ab : a.Follows held b) (bc : b.Follows held c) (begins : a.BeginsFrame) :
    c.before.state = .markAfterBreak ∧ c.before.wire = a.after.wire ∧
      c.before.frameStart = a.time ∧
      c.time = a.time + a.after.timing.breakTime + b.before.timing.markTime := by
  obtain ⟨state, frameStart, _⟩ := begins.after
  obtain ⟨phase, time, _⟩ := ab.released begins
  obtain ⟨_, left, next⟩ := endsBreak_of_lineBreak phase
  have after : b.after.state = .markAfterBreak := congrArg Transmitter.state left
  refine ⟨(bc.drifts.framing (.inr after)).trans after, ?_, ?_, ?_⟩
  · rw [bc.drifts.wire, left]
    exact ab.drifts.wire
  · rw [bc.drifts.frameStart, left]
    exact ab.drifts.frameStart.trans frameStart
  · rw [bc.time, next, time]

/-- Settings that are held are those of the beginning of the frame. -/
theorem settings (ab : a.Follows held b) (bc : b.Follows held c) (begins : a.BeginsFrame)
    (holds : held) :
    b.before.timing.settings = a.after.timing.settings ∧
      c.before.timing.settings = a.after.timing.settings := by
  obtain ⟨phase, _, _⟩ := ab.released begins
  obtain ⟨_, left, _⟩ := endsBreak_of_lineBreak phase
  have first := ab.drifts.settings holds (.inl begins.after.1)
  have second := bc.drifts.settings holds (.inr (congrArg Transmitter.state left))
  refine ⟨first, second.trans ?_⟩
  rw [left]
  exact first

/-- The bytes were begun: the service behind finds some of them waiting, or begins the
next frame. -/
theorem goesOn (cd : c.Follows held d)
    (begun : c.after.state = .data ∨ c.after.state = .interPacket) :
    d.before.state = .data ∨ d.BeginsFrame := by
  have found : d.before.state = .data ∨ d.before.state = .interPacket := by
    rcases cd.drifts.state with same | ⟨_, finished⟩
    · rw [same]
      exact begun
    · exact .inr finished
  rcases found with waiting | finished
  · exact .inl waiting
  · exact .inr (beginsFrame_of_between (.inr finished))

end Follows

/-- Three services make the break, the mark and the bytes of a frame, each at its time,
and set the next one by the period in use at the end of the mark. -/
structure InCadence (a b c : Service) : Prop where
  released : b.time = a.time + a.after.timing.breakTime ∧ b.EndsBreak
  begun : c.time = a.time + a.after.timing.breakTime + a.after.timing.markTime
  wire : c.before.wire = a.after.wire
  offers : ∀ byte rest, c.before.wire = byte :: rest → c.Offers byte
  next : c.next = a.time + c.before.timing.effective
  floor : periodFloor ≤ c.before.timing.effective
  requested : c.before.timing.requested ≤ c.before.timing.effective
  frame : a.after.timing.breakTime.toNat + a.after.timing.markTime.toNat +
    44 * c.before.wire.length + 44 ≤ c.before.timing.effective.toNat

/-- The period in use fits the frame on the wire, with the break and the mark in use. -/
theorem period_fits (c : Service) :
    periodFloor ≤ c.before.timing.effective ∧
      c.before.timing.requested ≤ c.before.timing.effective ∧
      c.before.timing.breakTime.toNat + c.before.timing.markTime.toNat +
        44 * c.before.wire.length + 44 ≤ c.before.timing.effective.toNat := by
  obtain ⟨_, _, floor, requested, frame⟩ := c.timed.fits
  rw [Nat.min_eq_left c.wellFormed.wire] at frame
  exact ⟨floor, requested, frame⟩

namespace Follows

/-- Where the settings are held, the frame that is begun keeps its cadence. -/
theorem inCadence (ab : a.Follows held b) (bc : b.Follows held c) (begins : a.BeginsFrame)
    (holds : held) : a.InCadence b c := by
  obtain ⟨_, released, ends⟩ := ab.released begins
  obtain ⟨phase, wire, frameStart, begun⟩ := ab.marked bc begins
  obtain ⟨offers, next, _⟩ := data_of_markAfterBreak phase
  obtain ⟨floor, requested, frame⟩ := c.period_fits
  obtain ⟨held, held'⟩ := ab.settings bc begins holds
  obtain ⟨_, mark⟩ := Prod.mk.inj held
  obtain ⟨lineBreak', mark'⟩ := Prod.mk.inj held'
  refine ⟨⟨released, ends⟩, ?_, wire, offers, ?_, floor, requested, ?_⟩
  · rw [begun, mark]
  · rw [next, frameStart]
  · rw [← lineBreak', ← mark']
    exact frame

/-- Whatever is set while a frame begins: where its break and mark took no longer than
those in use when its bytes begin, the next service comes behind all of its bytes. -/
theorem clears (ab : a.Follows held b) (bc : b.Follows held c) (begins : a.BeginsFrame)
    (short : a.after.timing.breakTime.toNat + b.before.timing.markTime.toNat ≤
      c.before.timing.breakTime.toNat + c.before.timing.markTime.toNat) :
    44 * c.before.wire.length + 44 ≤ (elapsed c.next c.time).toNat ∧
      (elapsed c.next c.time).toNat ≤ c.before.timing.effective.toNat := by
  obtain ⟨phase, _, frameStart, begun⟩ := ab.marked bc begins
  obtain ⟨_, next, _⟩ := data_of_markAfterBreak phase
  obtain ⟨_, _, frame⟩ := c.period_fits
  have left : elapsed c.next c.time =
      c.before.timing.effective - (a.after.timing.breakTime + b.before.timing.markTime) := by
    rw [elapsed, next, frameStart, begun]
    grind
  have sum : (a.after.timing.breakTime + b.before.timing.markTime).toNat =
      a.after.timing.breakTime.toNat + b.before.timing.markTime.toNat := by
    rw [UInt32.toNat_add]
    have bound := c.before.timing.effective.toNat_lt
    omega
  have le : a.after.timing.breakTime + b.before.timing.markTime ≤ c.before.timing.effective := by
    rw [UInt32.le_iff_toNat_le, sum]
    omega
  rw [left, UInt32.toNat_sub_of_le _ _ le, sum]
  omega

end Follows

end Service

end Dmx512
