import Dmx512.Proofs.Link.Receiving
import Dmx512.Proofs.Reception.Origins

/-!
# Frames are heard behind an open gate

A frame is published only while the gate of reception is open, and the gate is opened only right
behind the order that empties the receive queue. As the receiver begins anew there, a frame is a
part of what was heard since: nothing in it came from before.
-/

namespace Dmx512

theorem Event.eq_allowReceive {event : Event} (moves : event.movesGate = true) :
    ∃ enabled, event = .order (.allowReceive enabled) := by
  unfold Event.movesGate at moves
  split at moves
  · exact ⟨_, rfl⟩
  · cases moves

namespace Journal

/-- Every frame was published behind an open gate, and the gate was opened only right behind the
order to empty the receive queue. -/
def Gated : Journal → Prop
  | [] => True
  | ⟨_, .published _⟩ :: earlier => receiveAllowed earlier = true ∧ Gated earlier
  | ⟨_, .order (.allowReceive true)⟩ :: earlier =>
    (∃ time before, earlier = ⟨time, .order .clearReceive⟩ :: before) ∧ Gated earlier
  | _ :: earlier => Gated earlier

variable {entry : Entry} {new earlier : Journal}

theorem gated_cons (apart : entry.event.IsApart) (gated : Gated earlier) :
    Gated (entry :: earlier) := by
  obtain ⟨time, event⟩ := entry
  cases event with
  | order order =>
      cases order with
      | allowReceive => exact apart.elim
      | setBreak | allowTransmit | clearReceive | write | setAlarm | cancelAlarm => exact gated
  | heard | published | receiveAlarm => exact apart.elim
  | pin | clockRead | sampled | queued | turned | transmitAlarm => exact gated

theorem gated_append (apart : ∀ entry ∈ new, entry.event.IsApart) (gated : Gated earlier) :
    Gated (new ++ earlier) := by
  induction new with
  | nil => exact gated
  | cons entry rest ih =>
      obtain ⟨first, others⟩ := List.forall_mem_cons.mp apart
      exact gated_cons first (ih others)

theorem Gated.tail (h : Gated (entry :: earlier)) : Gated earlier := by
  obtain ⟨time, event⟩ := entry
  cases event with
  | order order =>
      cases order with
      | allowReceive enabled =>
          cases enabled with
          | true => exact h.2
          | false => exact h
      | setBreak | allowTransmit | clearReceive | write | setAlarm | cancelAlarm => exact h
  | published => exact h.2
  | heard | receiveAlarm | pin | clockRead | sampled | queued | turned | transmitAlarm => exact h

theorem Gated.behind (h : Gated (new ++ earlier)) : Gated earlier := by
  induction new with
  | nil => exact h
  | cons entry rest ih => exact ih h.tail

theorem receiveAllowed_cons (still : entry.event.movesGate = false) :
    receiveAllowed (entry :: earlier) = receiveAllowed earlier := by
  obtain ⟨time, event⟩ := entry
  cases event with
  | order order =>
      cases order with
      | allowReceive => cases still
      | setBreak | allowTransmit | clearReceive | write | setAlarm | cancelAlarm => rfl
  | heard | published | receiveAlarm | pin | clockRead | sampled | queued | turned
  | transmitAlarm => rfl

/-- Behind an open gate stands the order that opened it. -/
theorem exists_opening {journal : Journal} (allowed : receiveAllowed journal = true) :
    ∃ heard opened before, journal = heard ++ ⟨opened, .order (.allowReceive true)⟩ :: before ∧
      ∀ entry ∈ heard, entry.event.movesGate = false := by
  induction journal with
  | nil => cases allowed
  | cons entry earlier ih =>
      cases moves : entry.event.movesGate with
      | false =>
          rw [receiveAllowed_cons moves] at allowed
          obtain ⟨heard, opened, before, rfl, still⟩ := ih allowed
          exact ⟨entry :: heard, opened, before, rfl, List.forall_mem_cons.mpr ⟨moves, still⟩⟩
      | true =>
          obtain ⟨time, event⟩ := entry
          obtain ⟨enabled, rfl⟩ := Event.eq_allowReceive moves
          obtain rfl : enabled = true := allowed
          exact ⟨[], time, earlier, rfl, nofun⟩

/-- The session reaches back to where the gate was opened. -/
theorem session_opening {heard before : Journal} (opened : Micros)
    (still : ∀ entry ∈ heard, entry.event.movesGate = false) :
    session (heard ++ ⟨opened, .order (.allowReceive true)⟩ :: before) = occasions heard := by
  rw [session, List.takeWhile_append_of_pos fun entry mem => by rw [still entry mem]; rfl]
  exact congrArg occasions (List.append_nil heard)

/-- Every frame is an unbroken part of what was heard since the receiver began: since the gate
was last opened, right behind the order to empty the receive queue. -/
def PublishesHeard (journal : Journal) : Prop :=
  ∀ (later : Journal) (time : Micros) (frame : Frame) (earlier : Journal),
    journal = later ++ ⟨time, .published frame⟩ :: earlier →
    ∃ heard opened cleared before,
      earlier = heard ++ ⟨opened, .order (.allowReceive true)⟩ ::
        ⟨cleared, .order .clearReceive⟩ :: before ∧
      (∀ entry ∈ heard, entry.event.movesGate = false) ∧
      frame.data <:+: storyBytes (occasions heard)

theorem storyBytes_modifyLast (story : List Occasion) (frame : Frame) :
    storyBytes (story.modifyLast (·.publish frame)) = storyBytes story := by
  rcases List.eq_nil_or_concat story with rfl | ⟨front, last, rfl⟩
  · rfl
  · rw [List.concat_eq_append, List.modifyLast_concat, storyBytes_append, storyBytes_append]
    rfl

theorem Gated.publishesHeard {journal : Journal} (gated : journal.Gated)
    (attested : journal.Attested) : journal.PublishesHeard := by
  rintro later time frame earlier rfl
  obtain ⟨allowed, gated'⟩ : receiveAllowed earlier = true ∧ Gated earlier := gated.behind
  obtain ⟨heard, opened, rest, rfl, still⟩ := exists_opening allowed
  obtain ⟨⟨cleared, before, rfl⟩, _⟩ := gated'.behind
  refine ⟨heard, opened, cleared, before, rfl, still, ?_⟩
  obtain ⟨r, t, story, o, fresh, follows, shown, told⟩ := attested.split
  have part := fresh.published_infix follows List.mem_concat_self shown
  have since : session (⟨time, .published frame⟩ :: (heard ++
      ⟨opened, .order (.allowReceive true)⟩ :: ⟨cleared, .order .clearReceive⟩ :: before)) =
      occasions (⟨time, .published frame⟩ :: heard) :=
    session_opening opened (List.forall_mem_cons.mpr ⟨rfl, still⟩)
  rw [← told, since, occasions, storyBytes_modifyLast] at part
  exact part

end Journal

namespace Scene

variable {d r : Nat} {s t : Scene d r}

theorem gated_publish (allowed : s.journal.receiveAllowed = true) (gated : s.journal.Gated)
    (time : Micros) (frame : Option Frame) : (s.publish time frame).journal.Gated := by
  rcases frame with - | frame | frame
  · exact gated
  · exact ⟨allowed, gated⟩
  · exact ⟨allowed, gated⟩

theorem gated_watch (gated : s.journal.Gated) (time : Micros) (watchdog : Option Micros) :
    (s.watch time watchdog).journal.Gated := by
  cases watchdog <;> exact gated

theorem gated_sync (gated : s.journal.Gated) (time : Micros) : (s.sync time).journal.Gated := by
  rw [sync]
  split
  · exact gated
  · exact gated_watch gated time _

/-- Whatever can happen to a receiver, its frames come from behind an open gate. -/
theorem Receives.gated (h : s.Receives t) (wired : s.Wired) (gated : s.journal.Gated) :
    t.journal.Gated := by
  cases h with
  | apart apart =>
      obtain ⟨new, journal, others⟩ := apart.journal
      exact journal ▸ Journal.gated_append others gated
  | @hear signal time receiver frame receiving heard =>
      have allowed : s.journal.receiveAllowed = true := wired.receive.trans receiving
      exact gated_publish (s := (s.note time (.heard signal)).withReceiver receiver) allowed gated
        time frame
  | @timeOut time receiver frame later served =>
      refine gated_watch ?_ later none
      by_cases receiving : s.engine.receiving = true
      · have allowed : s.journal.receiveAllowed = true := wired.receive.trans receiving
        exact gated_publish (s := (s.note time .receiveAlarm).withReceiver receiver) allowed gated
          time frame
      · -- Without a packet under construction the timeout is stale.
        have idle : s.engine.receiver.state ≠ .dmxData := by
          rw [wired.deaf (Bool.eq_false_iff.mpr receiving)]
          decide
        cases served.symm.trans (Receiver.onTimeout_stale idle time)
        exact gated
  | sync time => exact gated_sync gated time
  | start input stopped first second =>
      rw [start_input _ _ input]
      exact ⟨⟨first, s.journal, rfl⟩, gated⟩
  | halt input first second third =>
      rw [halt_input _ _ _ input]
      exact gated_sync (s := (s.order first (.allowReceive false)).withReceiver
        s.engine.receiver.reset) gated second

end Scene

theorem Steps.gated {d r : Nat} {kinds : Step.Kind → Prop} {s t : Scene d r}
    (steps : Steps kinds s t) (wired : s.Wired) (gated : s.journal.Gated) : t.journal.Gated := by
  induction steps with
  | refl => exact gated
  | tail steps step ih =>
      obtain ⟨_, _, step⟩ := step
      exact step.receives.gated (Steps.wired steps wired) ih

end Dmx512
