import Dmx512.Proofs.Link.Spec

/-!
# Transmission makes steps

The interface takes a front part of the bytes that it is offered. What it takes
of a frame, and what an alarm makes of the transmit sequence, are the cases of
`Transmitter.Continues` and `Transmitter.Advances`.
-/

namespace Dmx512

open Act

variable {H : Type} [Hardware H] {allowed : Fault → Prop}

namespace Line

variable {line : Line H}

theorem wp_sample {post : Line.Status → Line H → Prop}
    (h : ∀ status time hardware,
      post status { hardware, journal := ⟨time, .sampled status⟩ :: line.journal }) :
    WP allowed sample post line :=
  h _ _ _

theorem wp_order {given : Order} {post : Unit → Line H → Prop}
    (h : ∀ time hardware,
      post () { hardware, journal := ⟨time, .order given⟩ :: line.journal }) :
    WP allowed (order given) post line :=
  h _ _

/-- The interface takes a front part of the bytes, in order. -/
theorem wp_writeReady (bytes : List UInt8) (line : Line H) :
    WP allowed (writeReady bytes) (fun count t =>
      count ≤ bytes.length ∧ ∃ entries, t.journal = entries ++ line.journal ∧
        Hands (bytes.take count) entries ∧ (count < bytes.length → entries.FindsFull)) line := by
  induction bytes generalizing line with
  | nil => exact ⟨Nat.le_refl 0, [], rfl, .nil, nofun⟩
  | cons byte rest ih =>
      rw [writeReady, WP.bind_iff]
      apply wp_sample
      intro status looked hardware
      rw [WP.ite_iff]
      constructor
      · intro room
        rw [WP.bind_iff]
        apply wp_order
        intro written hardware
        rw [WP.bind_iff]
        apply (ih _).mono
        rintro count t ⟨fits, entries, journal, hands, stops⟩
        refine ⟨Nat.succ_le_succ fits, _, ?_, hands.write byte looked written room, fun short => ?_⟩
        · rw [journal, List.append_assoc]
          rfl
        · obtain ⟨looked', status', earlier, rfl, full⟩ := stops (Nat.lt_of_succ_lt_succ short)
          exact ⟨looked', status', _, rfl, full⟩
      · intro full
        have noRoom : status.txReady = false := Bool.eq_false_iff.mpr full
        exact ⟨Nat.zero_le _, [_], rfl, .full looked noRoom,
          fun _ => ⟨looked, status, [], rfl, noRoom⟩⟩

end Line

namespace Link

variable {d r : Nat} {kinds : Step.Kind → Prop} {use : Nat × Bool} {s : Link H d r}

/-- The interface takes a front part of what is left of the frame. -/
theorem wp_fill :
    WP allowed fill (fun all t => ∃ count entries,
      t.scene = (s.scene.withTransmitter { s.cell.value.transmitter with
        sent := s.cell.value.transmitter.sent + count }).extend entries ∧
      t.uses = s.uses ∧
      Hands ((s.cell.value.transmitter.wire.drop s.cell.value.transmitter.sent).take count)
        entries ∧
      count ≤ s.cell.value.transmitter.wire.length - s.cell.value.transmitter.sent ∧
      (count < s.cell.value.transmitter.wire.length - s.cell.value.transmitter.sent →
        entries.FindsFull) ∧
      all = (s.cell.value.transmitter.sent + count ==
        s.cell.value.transmitter.wire.length)) s := by
  rw [fill]
  simp only [WP.bind_iff, wp_getTransmitter, wp_onLine]
  apply (Line.wp_writeReady _ s.line).mono
  rintro count line ⟨fits, entries, journal, hands, full⟩
  rw [List.length_drop] at fits full
  refine ⟨count, entries, ?_, rfl, hands, fits, full, rfl⟩
  simp [scene, Scene.withTransmitter, Scene.extend, journal]

theorem Does.continueFrame (within : kinds .interrupt) :
    Does allowed use kinds (Link.continueFrame : Act (Link H d r) Unit) := by
  intro s used sound
  rw [Link.continueFrame]
  simp only [WP.bind_iff, wp_getTransmitter, WP.ite_iff, WP.pure_iff]
  refine ⟨fun phase => ?_, fun _ => .refl s⟩
  have sent : s.cell.value.transmitter.sent ≤ s.cell.value.transmitter.wire.length :=
    sound.transmitter.sent phase
  apply wp_fill.mono
  rintro all t ⟨count, entries, filled, used', hands, fits, _, answer⟩
  rw [answer, beq_iff_eq]
  constructor
  · intro whole
    rw [List.take_of_length_le (by rw [List.length_drop]; omega)] at hands
    rw [whole] at filled
    rw [wp_order, wp_modifyTransmitter]
    refine .step ?_ within used'
    change Step _ s.scene ((t.scene.order t.line.now (.allowTransmit false)).withTransmitter
      { t.scene.engine.transmitter with state := .interPacket })
    rw [filled]
    exact .resume (.whole _ phase hands)
  · intro some
    have short : s.cell.value.transmitter.sent + count < s.cell.value.transmitter.wire.length := by
      omega
    exact .step (filled ▸ .resume (.part phase short hands)) within used'

/-- What an act makes of the transmitter is one of the cases of `Advances`. -/
def Advanced (s : Link H d r) (now : Micros) (next : Option Micros) (t : Link H d r) : Prop :=
  ∃ entries transmitter, s.cell.value.transmitter.Advances now entries transmitter next ∧
    t.scene = (s.scene.withTransmitter transmitter).extend entries ∧ t.uses = s.uses

theorem wp_beginBreak
    (phase : s.cell.value.transmitter.state = .idle ∨ s.cell.value.transmitter.state = .interPacket)
    (now : Micros) : WP allowed (beginBreak now) (s.Advanced now) s := by
  obtain ⟨timing, begun⟩ := s.cell.value.transmitter.beginFrame_ok now
  rw [beginBreak]
  simp only [WP.bind_iff, wp_getTransmitter, WP.ite_iff, WP.pure_iff, wp_setTransmitter, begun,
    WP.lift_ok_iff, wp_order]
  constructor
  · intro last
    exact ⟨[], _, .rest phase last, rfl, rfl⟩
  · intro more
    exact ⟨_, _, .lineBreak s.line.now phase (by simpa using more) begun, rfl, rfl⟩

theorem wp_beginMark (phase : s.cell.value.transmitter.state = .lineBreak) (now : Micros) :
    WP allowed (beginMark now) (s.Advanced now) s :=
  ⟨_, _, .mark s.line.now phase, rfl, rfl⟩

theorem wp_beginData (phase : s.cell.value.transmitter.state = .markAfterBreak) (now : Micros) :
    WP allowed beginData (s.Advanced now) s := by
  rw [beginData]
  simp only [WP.bind_iff, wp_modifyTransmitter]
  apply wp_fill.mono
  rintro all t ⟨count, entries, filled, used, hands, fits, full, answer⟩
  simp only [List.drop_zero, Nat.zero_add, Nat.sub_zero] at filled hands fits full answer
  have kept : t.cell.value.transmitter = { s.cell.value.transmitter with sent := count } :=
    congrArg (·.engine.transmitter) filled
  cases all with
  | true =>
      have whole : count = s.cell.value.transmitter.wire.length := beq_iff_eq.mp answer.symm
      subst whole
      rw [List.take_of_length_le (Nat.le_refl _)] at hands
      rw [settleData, wp_modifyTransmitter, wp_getTransmitter, WP.pure_iff]
      refine ⟨entries, { s.cell.value.transmitter with
        sent := s.cell.value.transmitter.wire.length, state := .interPacket }, ?_, ?_, used⟩
      · dsimp only
        rw [kept]
        exact .whole phase hands
      · change t.scene.withTransmitter { t.scene.engine.transmitter with state := .interPacket } = _
        rw [filled]
        rfl
  | false =>
      have part : count ≠ s.cell.value.transmitter.wire.length := beq_eq_false_iff_ne.mp answer.symm
      rw [settleData, WP.bind_iff, wp_modifyTransmitter, wp_order, wp_getTransmitter, WP.pure_iff]
      refine ⟨⟨t.line.now, .order (.allowTransmit true)⟩ :: entries,
        { s.cell.value.transmitter with sent := count, state := .data }, ?_, ?_, used⟩
      · dsimp only
        rw [kept]
        exact .part _ phase (by omega) hands (full (by omega))
      · change (t.scene.withTransmitter { t.scene.engine.transmitter with
          state := .data }).order t.line.now (.allowTransmit true) = _
        rw [filled]
        rfl

omit [Hardware H] in
theorem wp_awaitData (sound : s.scene.Sound) (phase : s.cell.value.transmitter.state = .data)
    (now : Micros) : WP allowed (awaitData now) (s.Advanced now) s := by
  obtain ⟨wait, later⟩ := sound.transmitter.catchUpTime phase
  have later' : s.cell.value.transmitter.overrun.catchUpTime = .ok wait := later
  rw [awaitData]
  simp only [WP.bind_iff, wp_modifyTransmitter, wp_getTransmitter, later', WP.lift_ok_iff,
    WP.pure_iff]
  exact ⟨_, _, .overrun phase later, rfl, rfl⟩

theorem wp_advance (sound : s.scene.Sound) (now : Micros) :
    WP allowed (advance now s.cell.value.transmitter.state) (s.Advanced now) s := by
  cases phase : s.cell.value.transmitter.state with
  | idle => exact wp_beginBreak (.inl phase) now
  | lineBreak => exact wp_beginMark phase now
  | markAfterBreak => exact wp_beginData phase now
  | data => exact wp_awaitData sound phase now
  | interPacket => exact wp_beginBreak (.inr phase) now

theorem setPace_eq (deadline : Option Micros) :
    setPace deadline = (order (alarmOrder .transmit deadline) : Act (Link H d r) Unit) := by
  cases deadline <;> rfl

theorem Does.pace (within : kinds .interrupt) :
    Does allowed use kinds (Link.pace : Act (Link H d r) Unit) := by
  intro s used sound
  rw [Link.pace]
  simp only [WP.bind_iff, wp_getEngine, WP.ite_iff, wp_readClock, wp_note, setPace_eq]
  constructor
  · intro sending
    let alarmed : Link H d r := { s with line := {
      hardware := Hardware.tick s.line.hardware
      journal := ⟨s.line.now, .transmitAlarm s.cell.value.transmitter.state⟩ ::
        ⟨s.line.now, .clockRead⟩ :: s.line.journal } }
    have sound' : alarmed.scene.Sound :=
      (sound.note (by simp [Event.topic]) _).note (by simp [Event.topic]) _
    apply (wp_advance (s := alarmed) sound' s.line.now).mono
    rintro next t ⟨entries, transmitter, advances, advanced, used'⟩
    rw [wp_order]
    let read : Link H d r := { s with line := {
      hardware := Hardware.tick s.line.hardware
      journal := ⟨s.line.now, .clockRead⟩ :: s.line.journal } }
    have reads : Moves kinds s read := .step (.readClock s.line.now) within rfl
    refine reads.trans (.step ?_ within used')
    change Step _ read.scene (t.scene.order t.line.now (alarmOrder .transmit next))
    rw [advanced]
    exact .pace _ sending advances
  · intro idle
    exact .step (.paceIdle _ (Bool.eq_false_iff.mpr idle)) within rfl

end Link

end Dmx512
