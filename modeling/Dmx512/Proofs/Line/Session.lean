import Dmx512.Proofs.Line.History

/-!
# What a journal tells of reception

The interrupt of received bytes is a gate: it is opened where the receiver begins anew, and
closed where it stops. `Journal.session` is what the receiver responded to since the gate was
last moved. Entries that are apart from reception change neither the session nor the alarm
of the receiver.
-/

namespace Dmx512

def Event.movesGate : Event → Bool
  | .order (.allowReceive _) => true
  | _ => false

/-- An event is apart from reception: the receiver is told nothing and publishes nothing,
and its gate and its alarm are left alone. -/
def Event.IsApart : Event → Prop
  | .heard _ | .published _ | .receiveAlarm | .order (.allowReceive _)
  | .order (.setAlarm .receiveTimeout _) | .order (.cancelAlarm .receiveTimeout) => False
  | _ => True

namespace Journal

/-- What the receiver responded to since the gate was last moved, oldest first. -/
def session (journal : Journal) : List Occasion :=
  occasions (journal.takeWhile fun entry => !entry.event.movesGate)

variable {entry : Entry} {new earlier : Journal} {story : List Occasion} {o : Occasion}

theorem session_cons (apart : entry.event.IsApart) :
    session (entry :: earlier) = session earlier := by
  obtain ⟨time, event⟩ := entry
  cases event with
  | order order =>
      cases order with
      | allowReceive => exact apart.elim
      | setBreak | allowTransmit | clearReceive | write | setAlarm | cancelAlarm => rfl
  | heard | published | receiveAlarm => exact apart.elim
  | pin | clockRead | sampled | queued | turned | transmitAlarm => rfl

theorem session_append (apart : ∀ entry ∈ new, entry.event.IsApart) :
    session (new ++ earlier) = session earlier := by
  induction new with
  | nil => rfl
  | cons entry rest ih =>
      obtain ⟨first, others⟩ := List.forall_mem_cons.mp apart
      rw [List.cons_append, session_cons first, ih others]

/-- A session begins with the gate. -/
theorem session_allowReceive (time : Micros) (enabled : Bool) :
    session (⟨time, .order (.allowReceive enabled)⟩ :: earlier) = [] := rfl

/-- A frame published after a response of the session belongs to it. -/
theorem session_published (time : Micros) (frame : Frame) (told : session earlier = story ++ [o]) :
    session (⟨time, .published frame⟩ :: earlier) = story ++ [o.publish frame] :=
  occasions_published frame told

theorem receiveAlarm?_cons (apart : entry.event.IsApart) :
    alarm? .receiveTimeout (entry :: earlier) = alarm? .receiveTimeout earlier := by
  obtain ⟨time, event⟩ := entry
  cases event with
  | order order =>
      cases order with
      | setAlarm alarm _ | cancelAlarm alarm =>
          cases alarm with
          | transmit => rfl
          | receiveTimeout => exact apart.elim
      | setBreak | allowReceive | allowTransmit | clearReceive | write => rfl
  | pin | clockRead | sampled | heard | published | queued | turned | transmitAlarm
  | receiveAlarm => rfl

theorem receiveAlarm?_append (apart : ∀ entry ∈ new, entry.event.IsApart) :
    alarm? .receiveTimeout (new ++ earlier) = alarm? .receiveTimeout earlier := by
  induction new with
  | nil => rfl
  | cons entry rest ih =>
      obtain ⟨first, others⟩ := List.forall_mem_cons.mp apart
      rw [List.cons_append, receiveAlarm?_cons first, ih others]

end Journal

end Dmx512
