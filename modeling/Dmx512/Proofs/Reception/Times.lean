import Dmx512.Proofs.Reception.Messages

/-!
# What a receiver knows of time

Beside the bytes of its frames, a receiver holds what it has read off the clock and what it has
counted and measured: its `Times`. The bytes of an RDM frame are served without a look at
them. So `retimed` commutes with the responses that assemble such a frame, and at most the end
of the frame is entered into the counters.
-/

namespace Dmx512

open Standard

namespace Receiver

/-- What a receiver has read off the clock, counted and measured. -/
structure Times where
  breakTime : Micros
  lastDmxBreak : Option Micros
  breakToBreak : Micros
  slotTime : Micros
  slotSpacing : Micros
  deadline : Option Micros
  counters : ReceiveCounters

def retimed (r : Receiver) (times : Times) : Receiver :=
  { r with
    breakTime := times.breakTime
    lastDmxBreak := times.lastDmxBreak
    breakToBreak := times.breakToBreak
    slotTime := times.slotTime
    slotSpacing := times.slotSpacing
    deadline := times.deadline
    counters := times.counters }

def times (r : Receiver) : Times :=
  { r with }

/-- The times after a byte of an RDM frame at `now`: the end of the frame is noted, if it was
published. -/
def Times.ended (times : Times) (frame : Option Frame) (now : Micros) : Times :=
  { times with counters := { times.counters with
    rdmReceiveEnd := if frame.isSome then now else times.counters.rdmReceiveEnd } }

/-- What a response to a byte of an RDM frame at `now` would be with other times. -/
def retell (times : Times) (now : Micros) (served : Receiver × Option Frame) :
    Receiver × Option Frame :=
  (served.1.retimed (times.ended served.2 now), served.2)

@[simp] theorem retimed_times (r : Receiver) : r.retimed r.times = r := rfl

@[simp] theorem retimed_retimed (r : Receiver) (times later : Times) :
    (r.retimed times).retimed later = r.retimed later := rfl

section

variable (r : Receiver) (times : Times) (byte : UInt8) (now : Micros)

theorem retimed_ite (c : Prop) [Decidable c] (t : Receiver) :
    (if c then r else t).retimed times = if c then r.retimed times else t.retimed times :=
  apply_ite (fun u : Receiver => u.retimed times) c r t

theorem append?_retimed :
    (r.retimed times).append? byte = (r.append? byte).map fun t => t.retimed times := by
  by_cases room : r.index < rdmCapacity
  · rw [append?_eq byte room]
    exact append?_eq (r := r.retimed times) byte room
  · rw [append?_full byte (Nat.le_of_not_lt room)]
    exact append?_full (r := r.retimed times) byte (Nat.le_of_not_lt room)

theorem publishRdm_retimed (now' : Micros) :
    (r.retimed times).publishRdm now' = (r.publishRdm now).map (retell times now') := by
  have same : (r.retimed times).rdmBuffer.front (r.retimed times).index =
    r.rdmBuffer.front r.index := rfl
  rw [publishRdm, publishRdm, same]
  cases r.rdmBuffer.front r.index <;> rfl

theorem onIdleByte_retimed :
    (r.retimed times).onIdleByte byte =
      (r.onIdleByte byte).map fun t => t.retimed times := by
  rw [onIdleByte, onIdleByte]
  split
  · have same : (r.retimed times).rdmBuffer.put 0 byte = r.rdmBuffer.put 0 byte := rfl
    rw [same]
    cases r.rdmBuffer.put 0 byte <;> rfl
  · rfl

theorem onMessageByte_retimed :
    (r.retimed times).onMessageByte byte = (r.onMessageByte byte).retimed times := by
  simp only [onMessageByte, append?_retimed]
  cases r.append? byte with
  | none => rfl
  | some t =>
      rw [retimed_ite]
      rfl

theorem onChecksumHigh_retimed :
    (r.retimed times).onChecksumHigh byte = (r.onChecksumHigh byte).retimed times := by
  rw [onChecksumHigh, onChecksumHigh, append?_retimed]
  cases r.append? byte <;> rfl

theorem onPreamble_retimed :
    (r.retimed times).onPreamble byte = (r.onPreamble byte).retimed times := by
  simp only [onPreamble, append?_retimed]
  cases r.append? byte with
  | none => rfl
  | some t =>
      rw [retimed_ite]
      rfl

theorem onEncodedUid_retimed :
    (r.retimed times).onEncodedUid byte = (r.onEncodedUid byte).retimed times := by
  simp only [onEncodedUid, append?_retimed]
  cases r.append? byte with
  | none => rfl
  | some t =>
      rw [retimed_ite]
      rfl

/-- The last byte of a message publishes it or not, whatever the times are. -/
theorem onChecksumLow_retimed (now' : Micros) :
    (r.retimed times).onChecksumLow byte now' =
      (r.onChecksumLow byte now).map (retell times now') := by
  simp only [onChecksumLow, append?_retimed]
  cases r.append? byte with
  | none => rfl
  | some t =>
      let ended : Receiver := { t with checksum := t.checksum - byte.toUInt16, state := .idle }
      rw [apply_ite (Except.map _)]
      exact ite_congr rfl (fun _ => publishRdm_retimed ended times now now') fun _ => rfl

theorem onEncodedSum_retimed (now' : Micros) :
    (r.retimed times).onEncodedSum byte now' =
      (r.onEncodedSum byte now).map (retell times now') := by
  simp only [onEncodedSum, append?_retimed]
  cases r.append? byte with
  | none => rfl
  | some t =>
      let ended : Receiver := { t with sectionIndex := t.sectionIndex + 1, state := .idle }
      rw [apply_ite (Except.map _)]
      exact ite_congr rfl (fun _ => publishRdm_retimed ended times now now') fun _ => rfl

/-- A byte that is neither a start code nor a slot is served whatever the times are. -/
theorem onByte_retimed (behind : r.state ≠ .lineBreak) (outside : r.state ≠ .dmxData)
    (now' : Micros) :
    (r.retimed times).onByte byte now' = (r.onByte byte now).map (retell times now') := by
  have same : (r.retimed times).state = r.state := rfl
  rw [onByte, onByte, same]
  cases state : r.state with
  | idle =>
      dsimp only
      rw [onIdleByte_retimed]
      cases r.onIdleByte byte <;> rfl
  | lineBreak => exact absurd state behind
  | dmxData => exact absurd state outside
  | rdmData =>
      exact congrArg (fun t => Except.ok (t, none)) (r.onMessageByte_retimed times byte)
  | checksumHigh =>
      exact congrArg (fun t => Except.ok (t, none)) (r.onChecksumHigh_retimed times byte)
  | checksumLow => exact r.onChecksumLow_retimed times byte now now'
  | discoveryPreamble =>
      exact congrArg (fun t => Except.ok (t, none)) (r.onPreamble_retimed times byte)
  | discoveryUid =>
      exact congrArg (fun t => Except.ok (t, none)) (r.onEncodedUid_retimed times byte)
  | discoveryChecksum => exact r.onEncodedSum_retimed times byte now now'

/-- Such a byte changes no times, unless it ends an RDM frame. -/
theorem onByte_times (behind : r.state ≠ .lineBreak) (outside : r.state ≠ .dmxData) {t : Receiver}
    {frame : Option Frame} (ended : r.onByte byte now = .ok (t, frame)) :
    t.times = r.times.ended frame now := by
  have same := onByte_retimed r r.times byte now behind outside now
  rw [retimed_times, ended] at same
  have told : (t, frame) = retell r.times now (t, frame) := Except.ok.inj same
  have receiver : t = t.retimed (r.times.ended frame now) := congrArg Prod.fst told
  rw [receiver]
  rfl

end

end Receiver

end Dmx512
