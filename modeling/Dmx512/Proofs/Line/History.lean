import Dmx512.Line.Journal
import Dmx512.Proofs.Reception.Story
import Mathlib.Data.List.ModifyLast

/-!
# What a journal tells of reception and transmission

Two views of a journal stand beside those of its own module: the occasions that
the receiver responded to, with what it published at each, and the frames queued
for sending. A view looks at the entries of one topic, so that entries of any
other topic leave it as it is.
-/

namespace Dmx512

open Standard

inductive Event.Topic where
  /-- What the receiver was told and what it published. -/
  | reception
  | queue
  /-- A byte handed to the interface. -/
  | byte
  | lineBreak
  | alarm
  | other
  deriving DecidableEq, Repr

def Event.topic : Event → Event.Topic
  | .heard _ | .published _ | .receiveAlarm => .reception
  | .queued _ => .queue
  | .order (.write _) => .byte
  | .order (.setBreak _) => .lineBreak
  | .order (.allowReceive _) | .order (.allowTransmit _) | .order .clearReceive
  | .order (.setAlarm _ _) | .order (.cancelAlarm _) => .other
  | .transmitAlarm _ => .alarm
  | .pin _ _ | .clockRead | .sampled _ | .turned _ => .other

def Occasion.publish (o : Occasion) (frame : Frame) : Occasion :=
  { o with published := o.published ++ [frame] }

namespace Journal

/-- What the receiver responded to, oldest first. A published frame belongs to
the response before it. -/
def occasions : Journal → List Occasion
  | [] => []
  | ⟨time, .heard signal⟩ :: earlier => occasions earlier ++ [{ cause := .signal signal, time }]
  | ⟨time, .receiveAlarm⟩ :: earlier => occasions earlier ++ [{ cause := .timeout, time }]
  | ⟨_, .published frame⟩ :: earlier => (occasions earlier).modifyLast (·.publish frame)
  | _ :: earlier => occasions earlier

/-- The frames queued for sending, oldest first. -/
def queued : Journal → List (List UInt8)
  | [] => []
  | ⟨_, .queued frame⟩ :: earlier => queued earlier ++ [frame]
  | _ :: earlier => queued earlier

/-- The frame queued last; before any was queued, a full frame of zeros. -/
def latestFrame (journal : Journal) : List UInt8 :=
  (queued journal).getLastD (List.replicate dmxCapacity 0)

def Lacks (topic : Event.Topic) (entries : Journal) : Prop :=
  ∀ entry ∈ entries, entry.event.topic ≠ topic

theorem Lacks.nil (topic : Event.Topic) : Lacks topic [] := by simp [Lacks]

theorem Lacks.cons {topic : Event.Topic} {entry : Entry} {entries : Journal}
    (first : entry.event.topic ≠ topic) (rest : Lacks topic entries) :
    Lacks topic (entry :: entries) :=
  List.forall_mem_cons.mpr ⟨first, rest⟩

section Views

variable {entry : Entry} {new earlier : Journal}

theorem occasions_cons (other : entry.event.topic ≠ .reception) :
    occasions (entry :: earlier) = occasions earlier := by
  obtain ⟨time, event⟩ := entry
  cases event with
  | heard | published | receiveAlarm => contradiction
  | order | pin | clockRead | sampled | queued | turned | transmitAlarm => rfl

theorem queued_cons (other : entry.event.topic ≠ .queue) :
    queued (entry :: earlier) = queued earlier := by
  obtain ⟨time, event⟩ := entry
  cases event with
  | queued => contradiction
  | heard | published | receiveAlarm | order | pin | clockRead | sampled | turned
  | transmitAlarm => rfl

theorem written_cons (other : entry.event.topic ≠ .byte) :
    written (entry :: earlier) = written earlier := by
  obtain ⟨time, event⟩ := entry
  cases event with
  | order order =>
      cases order with
      | write => contradiction
      | setBreak | allowReceive | allowTransmit | clearReceive | setAlarm | cancelAlarm => rfl
  | heard | published | receiveAlarm | queued | pin | clockRead | sampled | turned
  | transmitAlarm => rfl

theorem occasions_append (lacks : Lacks .reception new) :
    occasions (new ++ earlier) = occasions earlier := by
  induction new with
  | nil => rfl
  | cons entry rest ih =>
      obtain ⟨first, others⟩ := List.forall_mem_cons.mp lacks
      rw [List.cons_append, occasions_cons first, ih others]

theorem queued_append (lacks : Lacks .queue new) :
    queued (new ++ earlier) = queued earlier := by
  induction new with
  | nil => rfl
  | cons entry rest ih =>
      obtain ⟨first, others⟩ := List.forall_mem_cons.mp lacks
      rw [List.cons_append, queued_cons first, ih others]

theorem latestFrame_append (lacks : Lacks .queue new) :
    latestFrame (new ++ earlier) = latestFrame earlier := by
  rw [latestFrame, queued_append lacks, latestFrame]

theorem latestFrame_queued (time : Micros) (frame : List UInt8) :
    latestFrame (⟨time, .queued frame⟩ :: earlier) = frame := by
  rw [latestFrame, queued, List.getLastD_concat]

theorem written_append (new earlier : Journal) :
    written (new ++ earlier) = written earlier ++ written new := by
  induction new with
  | nil => exact (List.append_nil _).symm
  | cons entry rest ih =>
      by_cases byte : entry.event.topic = .byte
      · obtain ⟨time, event⟩ := entry
        have write : ∃ value, event = .order (.write value) := by
          unfold Event.topic at byte
          split at byte <;> simp_all
        obtain ⟨value, rfl⟩ := write
        rw [List.cons_append, written, written, ih, List.append_assoc]
      · rw [List.cons_append, written_cons byte, written_cons byte, ih]

/-- What was written on the way from one journal to a later one is in the entries between. -/
theorem written_of_append {earlier later : Journal} {bytes : List UInt8}
    (split : new ++ earlier = later) (sent : later.written = earlier.written ++ bytes) :
    new.written = bytes := by
  rw [← split, written_append] at sent
  exact List.append_cancel_left sent

theorem written_eq_nil (lacks : Lacks .byte new) : written new = [] := by
  induction new with
  | nil => rfl
  | cons entry rest ih =>
      obtain ⟨first, others⟩ := List.forall_mem_cons.mp lacks
      rw [written_cons first, ih others]

/-- A frame published after a response belongs to it. -/
theorem occasions_published {story : List Occasion} {o : Occasion} {time : Micros} (frame : Frame)
    (heard : occasions earlier = story ++ [o]) :
    occasions (⟨time, .published frame⟩ :: earlier) = story ++ [o.publish frame] := by
  rw [occasions, heard, List.modifyLast_concat]

end Views

end Journal

end Dmx512
