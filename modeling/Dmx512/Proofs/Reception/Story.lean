import Dmx512.Proofs.Reception.Discovery
import Dmx512.Proofs.Reception.Slots

/-!
# The story of a receiver

What a receiver responds to is a signal from the line or its own timeout. Each
response is an `Occasion`: the cause, the time, and what was published. A story
is a list of occasions, oldest first, and `Follows r story t` says that a
receiver `r` lives through `story` and becomes `t`.

A well-formed receiver lives through any sequence of causes, and in one way
only, so that a statement about all stories is a statement about all inputs.
-/

namespace Dmx512

open Standard

inductive Cause where
  | signal (signal : Signal)
  | timeout
  deriving DecidableEq, Repr

structure Occasion where
  cause : Cause
  time : Micros
  /-- The frames that it published then. -/
  published : List Frame := []
  deriving DecidableEq, Repr

namespace Occasion

def IsBreak (o : Occasion) : Prop := o.cause = .signal .lineBreak

/-- The byte that arrived without error, if one did. -/
def byte? (o : Occasion) : Option UInt8 :=
  match o.cause with
  | .signal (.byte value) => some value
  | _ => none

/-- A byte without error arrived, or a timeout was served. -/
def IsClean (o : Occasion) : Prop := o.cause = .timeout ∨ ∃ byte, o.cause = .signal (.byte byte)

end Occasion

def storyBytes (story : List Occasion) : List UInt8 := story.filterMap Occasion.byte?

@[simp] theorem storyBytes_append (first second : List Occasion) :
    storyBytes (first ++ second) = storyBytes first ++ storyBytes second :=
  List.filterMap_append

theorem storyBytes_timeout {o : Occasion} (timeout : o.cause = .timeout) (rest : List Occasion) :
    storyBytes (o :: rest) = storyBytes rest := by
  simp [storyBytes, Occasion.byte?, timeout]

theorem storyBytes_byte {o : Occasion} {byte : UInt8} (arrives : o.cause = .signal (.byte byte))
    (rest : List Occasion) : storyBytes (o :: rest) = byte :: storyBytes rest := by
  simp [storyBytes, Occasion.byte?, arrives]

def storyFrames (story : List Occasion) : List Frame := story.flatMap Occasion.published

theorem storyFrames_cons (o : Occasion) (rest : List Occasion) :
    storyFrames (o :: rest) = o.published ++ storyFrames rest :=
  List.flatMap_cons

theorem storyFrames_append (first second : List Occasion) :
    storyFrames (first ++ second) = storyFrames first ++ storyFrames second :=
  List.flatMap_append

theorem storyFrames_eq_nil {story : List Occasion} (silent : ∀ o ∈ story, o.published = []) :
    storyFrames story = [] :=
  List.flatMap_eq_nil_iff.mpr silent

/-- Where only one response publishes anything, and that one frame. -/
theorem storyFrames_eq_singleton (front : List Occasion) {late : List Occasion} {o : Occasion}
    {frame : Frame} (before : ∀ o ∈ front, o.published = []) (shown : o.published = [frame])
    (behind : ∀ o ∈ late, o.published = []) : storyFrames (front ++ o :: late) = [frame] := by
  rw [storyFrames_append, storyFrames_eq_nil before, storyFrames_cons, shown,
    storyFrames_eq_nil behind]
  rfl

/-- A part of a story brings bytes: they arrive in it without error, and timeouts are
served in between. -/
inductive Brings : List Occasion → List UInt8 → Prop where
  | nil : Brings [] []
  | timeout {o : Occasion} {rest : List Occasion} {bytes : List UInt8}
      (served : o.cause = .timeout) (later : Brings rest bytes) : Brings (o :: rest) bytes
  | byte {o : Occasion} {rest : List Occasion} {value : UInt8} {bytes : List UInt8}
      (arrives : o.cause = .signal (.byte value)) (later : Brings rest bytes) :
      Brings (o :: rest) (value :: bytes)

namespace Brings

variable {part : List Occasion} {bytes : List UInt8} {value : UInt8}

theorem clean (h : Brings part bytes) : ∀ o ∈ part, o.IsClean := by
  induction h with
  | nil => simp
  | timeout served _ ih => exact List.forall_mem_cons.mpr ⟨.inl served, ih⟩
  | byte arrives _ ih => exact List.forall_mem_cons.mpr ⟨.inr ⟨_, arrives⟩, ih⟩

theorem storyBytes_eq (h : Brings part bytes) : storyBytes part = bytes := by
  induction h with
  | nil => rfl
  | timeout served _ ih => rw [storyBytes_timeout served, ih]
  | byte arrives _ ih => rw [storyBytes_byte arrives, ih]

theorem append {more : List Occasion} {others : List UInt8} (h : Brings part bytes)
    (later : Brings more others) : Brings (part ++ more) (bytes ++ others) := by
  induction h with
  | nil => exact later
  | timeout served _ ih => exact .timeout served ih
  | byte arrives _ ih => exact .byte arrives ih

/-- Where nothing arrives, only timeouts are served. -/
theorem timeouts (h : Brings part []) : ∀ o ∈ part, o.cause = .timeout := by
  generalize none : ([] : List UInt8) = bytes at h
  induction h with
  | nil => simp
  | timeout served _ ih => exact List.forall_mem_cons.mpr ⟨served, ih none⟩
  | byte => cases none

/-- A byte parts what brings the bytes before it from what brings those behind it. -/
theorem exists_byte {others : List UInt8} (h : Brings part (bytes ++ value :: others)) :
    ∃ front o rest, part = front ++ o :: rest ∧ Brings front bytes ∧
      o.cause = .signal (.byte value) ∧ Brings rest others := by
  generalize whole : bytes ++ value :: others = all at h
  induction h generalizing bytes with
  | nil => simp at whole
  | @timeout early _ _ served _ ih =>
      obtain ⟨front, o, rest, rfl, before, arrives, behind⟩ := ih whole
      exact ⟨early :: front, o, rest, rfl, .timeout served before, arrives, behind⟩
  | @byte o rest _ _ arrives later ih =>
      cases bytes with
      | nil =>
          obtain ⟨rfl, rfl⟩ := List.cons.inj whole
          exact ⟨[], o, rest, rfl, .nil, arrives, later⟩
      | cons _ _ =>
          obtain ⟨rfl, behind⟩ := List.cons.inj whole
          obtain ⟨front, last, rest, rfl, before, lastArrives, late⟩ := ih behind
          exact ⟨o :: front, last, rest, rfl, .byte arrives before, lastArrives, late⟩

/-- The first byte parts the timeouts before it from what brings the others. -/
theorem exists_first (h : Brings part (value :: bytes)) :
    ∃ early first rest, part = early ++ first :: rest ∧ (∀ o ∈ early, o.cause = .timeout) ∧
      first.cause = .signal (.byte value) ∧ Brings rest bytes := by
  obtain ⟨early, first, rest, rfl, before, arrives, behind⟩ :=
    exists_byte (show Brings part ([] ++ value :: bytes) from h)
  exact ⟨early, first, rest, rfl, before.timeouts, arrives, behind⟩

/-- The last byte parts what brings the bytes before from the timeouts behind it. -/
theorem exists_last (h : Brings part (bytes ++ [value])) :
    ∃ front last late, part = front ++ last :: late ∧ Brings front bytes ∧
      last.cause = .signal (.byte value) ∧ ∀ o ∈ late, o.cause = .timeout := by
  obtain ⟨front, last, late, rfl, before, arrives, behind⟩ := h.exists_byte
  exact ⟨front, last, late, rfl, before, arrives, behind.timeouts⟩

end Brings

namespace Receiver

def attend (r : Receiver) (cause : Cause) (now : Micros) : Checked (Receiver × Option Frame) :=
  match cause with
  | .signal signal => r.hear signal now
  | .timeout => r.onTimeout now

/-- A receiver lives through a story. -/
inductive Follows : Receiver → List Occasion → Receiver → Prop where
  | nil (r : Receiver) : Follows r [] r
  | cons {r m t : Receiver} {o : Occasion} {rest : List Occasion} {frame : Option Frame}
      (now : r.attend o.cause o.time = .ok (m, frame)) (published : o.published = frame.toList)
      (later : Follows m rest t) : Follows r (o :: rest) t

namespace Follows

variable {r m t : Receiver} {first second : List Occasion}

theorem append (h : Follows r first m) (h' : Follows m second t) :
    Follows r (first ++ second) t := by
  induction h with
  | nil => exact h'
  | cons now published _ ih => exact .cons now published (ih h')

/-- Every story passes through the receivers between its parts. -/
theorem split (h : Follows r (first ++ second) t) :
    ∃ m, Follows r first m ∧ Follows m second t := by
  induction first generalizing r with
  | nil => exact ⟨r, .nil r, h⟩
  | cons o rest ih =>
      cases h with
      | cons now published later =>
          obtain ⟨m, hfirst, hsecond⟩ := ih later
          exact ⟨m, .cons now published hfirst, hsecond⟩

/-- A receiver lives through a story in one way only. -/
theorem unique {t' : Receiver} (h : Follows r first t) (h' : Follows r first t') : t = t' := by
  induction h with
  | nil =>
      cases h'
      rfl
  | cons now _ _ ih =>
      cases h' with
      | cons now' _ later =>
          cases now.symm.trans now'
          exact ih later

/-- What comes behind the front part of a story is lived through from where it ended. -/
theorem rest (h : Follows r (first ++ second) t) (front : Follows r first m) :
    Follows m second t := by
  obtain ⟨m', front', behind⟩ := h.split
  exact front.unique front' ▸ behind

end Follows

/-- Where no slots are awaited, a timeout changes nothing. -/
theorem Follows.timeout {r t : Receiver} {o : Occasion} {rest : List Occasion}
    (follows : Follows r (o :: rest) t) (state : r.state ≠ .dmxData) (served : o.cause = .timeout) :
    o.published = [] ∧ Follows r rest t := by
  cases follows with
  | cons now published later =>
      rw [served, attend, onTimeout_stale state] at now
      cases now
      exact ⟨published, later⟩

/-- Where no slots are awaited, timeouts change nothing. -/
theorem Follows.stale {r t : Receiver} {story : List Occasion} (follows : Follows r story t)
    (state : r.state ≠ .dmxData) (timeouts : ∀ o ∈ story, o.cause = .timeout) :
    t = r ∧ ∀ o ∈ story, o.published = [] := by
  induction story with
  | nil =>
      cases follows
      simp
  | cons o rest ih =>
      obtain ⟨first, others⟩ := List.forall_mem_cons.mp timeouts
      obtain ⟨silent, later⟩ := follows.timeout state first
      obtain ⟨same, silent'⟩ := ih later others
      exact ⟨same, List.forall_mem_cons.mpr ⟨silent, silent'⟩⟩

section StartCode

variable {r : Receiver}

theorem onStartCode_dmx (now : Micros) :
    ∃ counters, r.onStartCode dmxStartCode now = .ok { r with
      state := .dmxData
      dmxBuffer := r.dmxBuffer.set 0 dmxStartCode
      index := 1
      slotTime := now
      lastDmxBreak := some r.breakTime
      breakToBreak := (r.lastDmxBreak.map (elapsed r.breakTime)).getD 0
      counters := counters } := by
  rw [Receiver.onStartCode, if_pos rfl, Buffer.put_of_lt _ _ (by decide)]
  exact ⟨_, rfl⟩

theorem onStartCode_rdm (now : Micros) :
    ∃ counters, r.onStartCode rdmStartCode now = .ok { r with
      state := .rdmData
      rdmBuffer := r.rdmBuffer.set 0 rdmStartCode
      index := 1
      checksum := rdmStartCode.toUInt16
      lastDmxBreak := none
      counters := counters } := by
  rw [Receiver.onStartCode, if_neg (by decide), if_pos rfl, Buffer.put_of_lt _ _ (by decide)]
  exact ⟨_, rfl⟩

theorem onStartCode_other {code : UInt8} (now : Micros) (dmx : code ≠ dmxStartCode)
    (rdm : code ≠ rdmStartCode) :
    r.onStartCode code now = .ok { r with state := .idle, lastDmxBreak := none } := by
  rw [Receiver.onStartCode, if_neg dmx, if_neg rdm]
  rfl

theorem dmxBytes_startCode {t : Receiver} (code : UInt8)
    (buffer : t.dmxBuffer = r.dmxBuffer.set 0 code) (index : t.index = 1) :
    t.dmxBytes = [code] := by
  rw [dmxBytes, buffer, index, Buffer.take_set r.dmxBuffer 0 code (by decide)]
  rfl

theorem rdmBytes_startCode {t : Receiver} (code : UInt8)
    (buffer : t.rdmBuffer = r.rdmBuffer.set 0 code) (index : t.index = 1) :
    t.rdmBytes = [code] := by
  rw [rdmBytes, buffer, index, Buffer.take_set r.rdmBuffer 0 code (by decide)]
  rfl

theorem WellFormed.onStartCode (h : r.WellFormed) (state : r.state = .lineBreak) (code : UInt8)
    (now : Micros) : ∃ t, r.onStartCode code now = .ok t ∧ t.WellFormed := by
  have deadline := h.deadline_eq_none (by rw [state]; decide)
  by_cases dmx : code = dmxStartCode
  · subst dmx
    obtain ⟨counters, ended⟩ := r.onStartCode_dmx now
    refine ⟨_, ended, ?_, Nat.le_refl 1, (by decide : 1 ≤ maxSlots), by simp⟩
    simp [deadline]
  · by_cases rdm : code = rdmStartCode
    · subst rdm
      obtain ⟨counters, ended⟩ := r.onStartCode_rdm now
      refine ⟨_, ended, .of_holds .rdmData rfl (by decide) deadline ?_⟩
      refine ⟨Nat.le_refl 1, (by decide : 1 ≤ rdmCapacity), by simp, ?_, ?_⟩
      · rw [rdmBytes_startCode rdmStartCode rfl rfl]
        rfl
      · exact fun three => absurd three (by decide : ¬ 3 ≤ 1)
    · exact ⟨_, onStartCode_other now dmx rdm, .of_idle rfl deadline⟩

end StartCode

section Attend

variable {r : Receiver}

theorem WellFormed.onByte (h : r.WellFormed) (byte : UInt8) (now : Micros) :
    ∃ t frame, r.onByte byte now = .ok (t, frame) ∧ t.WellFormed := by
  rw [Receiver.onByte]
  cases state : r.state with
  | idle =>
      obtain ⟨t, ended, wf⟩ := h.onIdleByte state byte
      simp only [ended]
      exact ⟨t, none, rfl, wf⟩
  | lineBreak =>
      obtain ⟨t, ended, wf⟩ := h.onStartCode state byte now
      simp only [ended]
      exact ⟨t, none, rfl, wf⟩
  | dmxData => exact h.onSlot state byte now
  | rdmData => exact ⟨_, _, rfl, (h.onMessageByte state byte).1⟩
  | checksumHigh => exact ⟨_, _, rfl, (h.onChecksumHigh state byte).1⟩
  | checksumLow =>
      obtain ⟨_, _, t, frame, _, _, _, ended, wf, _⟩ := h.onChecksumLow state byte now
      exact ⟨t, frame, ended, wf⟩
  | discoveryPreamble => exact ⟨_, _, rfl, (h.onPreamble state byte).1⟩
  | discoveryUid => exact ⟨_, _, rfl, (h.onEncodedUid state byte).1⟩
  | discoveryChecksum =>
      obtain ⟨t, frame, ended, wf, _⟩ := h.onEncodedSum state byte now
      exact ⟨t, frame, ended, wf⟩

/-- No cause is a fault to a well-formed receiver, and each leaves it so. -/
theorem WellFormed.attend (h : r.WellFormed) (cause : Cause) (now : Micros) :
    ∃ t frame, r.attend cause now = .ok (t, frame) ∧ t.WellFormed := by
  cases cause with
  | timeout => exact h.onTimeout now
  | signal signal =>
      cases signal with
      | lineBreak => exact h.onBreak now
      | byte value => exact h.onByte value now
      | damaged => exact ⟨_, _, rfl, .of_idle rfl rfl⟩

theorem WellFormed.of_attend {t : Receiver} {cause : Cause} {now : Micros} {frame : Option Frame}
    (h : r.WellFormed) (attended : r.attend cause now = .ok (t, frame)) : t.WellFormed := by
  obtain ⟨_, _, ended, wf⟩ := h.attend cause now
  cases attended.symm.trans ended
  exact wf

theorem WellFormed.reset (r : Receiver) : r.reset.WellFormed := .of_idle rfl rfl

theorem WellFormed.follows (h : r.WellFormed) {t : Receiver} {story : List Occasion}
    (follows : Follows r story t) : t.WellFormed := by
  induction follows with
  | nil => exact h
  | cons now _ _ ih => exact ih (h.of_attend now)

/-- Behind a break a receiver awaits a start code. -/
theorem WellFormed.follows_lineBreak (h : r.WellFormed) {t : Receiver} {o : Occasion}
    {before after : List Occasion} (isBreak : o.IsBreak)
    (follows : Follows r (before ++ o :: after) t) :
    ∃ m, m.WellFormed ∧ m.state = .lineBreak ∧ Follows r (before ++ [o]) m ∧
      Follows m after t := by
  obtain ⟨u, first, second⟩ := follows.split
  cases second with
  | cons now published later =>
      have broken := now
      rw [isBreak] at broken
      refine ⟨_, ?_, (onBreak_ok broken).1, first.append (.cons now published (.nil _)), later⟩
      exact (h.follows first).follows (.cons now published (.nil _))

end Attend

end Receiver

end Dmx512
