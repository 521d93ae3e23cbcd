import Dmx512.Line.Journal

/-!
# What a journal tells of the hardware

`Levels` collects what the hardware of a link was last told: the break, the
interrupt masks, the transmit alarm, the direction pin and the direction that was
taken, and with them the phase of the transmit sequence, as far as the orders and
the alarms tell it. Most entries are quiet, and leave all of this as it is.
-/

namespace Dmx512

namespace Journal

/-- The phase of the transmit sequence. A break that is put on the line while the
transmit alarm is set belongs to the sequence, and so does the mark behind it; a
frame is handed over once the interrupt of room in the queue is masked again, or at
the alarm that ends the mark unless that interrupt is allowed then; an alarm that
is disarmed ends the sequence. -/
def phase : Journal → TransmitState
  | [] => .idle
  | ⟨_, .transmitAlarm .markAfterBreak⟩ :: _ => .interPacket
  | ⟨_, .order (.cancelAlarm .transmit)⟩ :: _ => .idle
  | ⟨_, .order (.allowTransmit true)⟩ :: _ => .data
  | ⟨_, .order (.allowTransmit false)⟩ :: _ => .interPacket
  | ⟨_, .order (.setBreak true)⟩ :: earlier =>
    if (alarm? .transmit earlier).isSome then .lineBreak else phase earlier
  | ⟨_, .order (.setBreak false)⟩ :: earlier =>
    if phase earlier = .lineBreak then .markAfterBreak else phase earlier
  | _ :: earlier => phase earlier

end Journal

/-- What hardware was last told, and the phase of the transmit sequence. -/
@[ext]
structure Levels where
  /-- Whether the break is on the line. -/
  lineBreak : Bool
  /-- Whether the interrupt of received bytes is allowed. -/
  receive : Bool
  /-- Whether the interrupt of a transmit queue with room is allowed. -/
  transmit : Bool
  /-- The deadline of the transmit alarm, if it is set. -/
  alarm : Option Micros
  /-- The level that the direction pin last took, if it ever took one. -/
  pin : Option Bool
  direction : Direction
  phase : TransmitState
  deriving DecidableEq, Repr

def Journal.levels (journal : Journal) : Levels where
  lineBreak := journal.breakAsserted
  receive := journal.receiveAllowed
  transmit := journal.transmitAllowed
  alarm := journal.alarm? .transmit
  pin := journal.pinLevel?
  direction := journal.direction
  phase := journal.phase

/-- An event that tells nothing of the hardware that lasts. -/
def Event.IsQuiet : Event → Prop
  | .order .clearReceive | .order (.write _) | .order (.setAlarm .receiveTimeout _)
  | .order (.cancelAlarm .receiveTimeout) => True
  | .clockRead | .sampled _ | .heard _ | .published _ | .queued _ | .receiveAlarm => True
  | .order _ | .pin _ _ | .turned _ | .transmitAlarm _ => False

namespace Journal

variable {entry : Entry} {new earlier : Journal}

theorem levels_cons (quiet : entry.event.IsQuiet) :
    levels (entry :: earlier) = levels earlier := by
  obtain ⟨time, event⟩ := entry
  cases event with
  | order order =>
      cases order with
      | setBreak | allowReceive | allowTransmit => exact quiet.elim
      | clearReceive | write => rfl
      | setAlarm alarm | cancelAlarm alarm =>
          cases alarm with
          | transmit => exact quiet.elim
          | receiveTimeout => rfl
  | pin | turned | transmitAlarm => exact quiet.elim
  | clockRead | sampled | heard | published | queued | receiveAlarm => rfl

theorem levels_append (quiet : ∀ entry ∈ new, entry.event.IsQuiet) :
    levels (new ++ earlier) = levels earlier := by
  induction new with
  | nil => rfl
  | cons entry rest ih =>
      obtain ⟨first, others⟩ := List.forall_mem_cons.mp quiet
      rw [List.cons_append, levels_cons first, ih others]

/-- A pin that once took a level keeps having one. -/
theorem isSome_pinLevel? (older : earlier <:+ new) (driven : earlier.pinLevel?.isSome = true) :
    new.pinLevel?.isSome = true := by
  obtain ⟨entries, rfl⟩ := older
  induction entries with
  | nil => exact driven
  | cons entry rest ih =>
      obtain ⟨time, event⟩ := entry
      cases event with
      | pin high took =>
          cases took
          · exact ih
          · rfl
      | order | turned | transmitAlarm | clockRead | sampled | heard | published | queued
      | receiveAlarm => exact ih

section Changes

variable (time : Micros) (earlier : Journal)

theorem levels_allowTransmit (enabled : Bool) :
    levels (⟨time, .order (.allowTransmit enabled)⟩ :: earlier) =
      { levels earlier with
        transmit := enabled, phase := if enabled then .data else .interPacket } := by
  cases enabled <;> rfl

theorem levels_setBreak (asserted : Bool) :
    levels (⟨time, .order (.setBreak asserted)⟩ :: earlier) =
      { levels earlier with
        lineBreak := asserted
        phase :=
          if asserted then
            if (levels earlier).alarm.isSome then .lineBreak else (levels earlier).phase
          else if (levels earlier).phase = .lineBreak then .markAfterBreak
          else (levels earlier).phase } := by
  cases asserted <;> rfl

theorem levels_setAlarm (deadline : Micros) :
    levels (⟨time, .order (.setAlarm .transmit deadline)⟩ :: earlier) =
      { levels earlier with alarm := some deadline } := rfl

theorem levels_cancelAlarm :
    levels (⟨time, .order (.cancelAlarm .transmit)⟩ :: earlier) =
      { levels earlier with alarm := none, phase := .idle } := rfl

theorem levels_transmitAlarm (phase : TransmitState) :
    levels (⟨time, .transmitAlarm phase⟩ :: earlier) =
      { levels earlier with
        phase := if phase = .markAfterBreak then .interPacket else (levels earlier).phase } := by
  cases phase <;> rfl

end Changes

end Journal

end Dmx512
