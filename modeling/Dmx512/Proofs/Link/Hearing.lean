import Dmx512.Proofs.Frame.Store
import Dmx512.Proofs.Link.Sound

/-!
# What a link hears

Interrupts are all that reaches the receiver of a link. What they tell it is a
story, which the journal records, and the frames that the receiver publishes on
the way go into their stores.
-/

namespace Dmx512

namespace Scene

variable {d r : Nat} {s m t : Scene d r} {first second : List Occasion}

/-- From `s` to `t` the receiver lived through a story. The journal tells it, and the
frames published in it were stored. -/
structure Hears (s : Scene d r) (story : List Occasion) (t : Scene d r) : Prop where
  follows : s.engine.receiver.Follows story t.engine.receiver
  occasions : t.journal.occasions = s.journal.occasions ++ story
  dmxStore : t.dmxStore = s.dmxStore.pushAll ((storyFrames story).filterMap Frame.dmx?)
  rdmStore : t.rdmStore = s.rdmStore.pushAll ((storyFrames story).filterMap Frame.rdm?)

namespace Hears

theorem silent (receiver : t.engine.receiver = s.engine.receiver)
    (occasions : t.journal.occasions = s.journal.occasions) (dmxStore : t.dmxStore = s.dmxStore)
    (rdmStore : t.rdmStore = s.rdmStore) : Hears s [] t where
  follows := receiver ▸ .nil _
  occasions := occasions.trans (List.append_nil _).symm
  dmxStore := dmxStore
  rdmStore := rdmStore

theorem refl (s : Scene d r) : Hears s [] s := silent rfl rfl rfl rfl

theorem trans (h : Hears s first m) (h' : Hears m second t) : Hears s (first ++ second) t where
  follows := h.follows.append h'.follows
  occasions := by rw [h'.occasions, h.occasions, List.append_assoc]
  dmxStore := by
    rw [h'.dmxStore, h.dmxStore, storyFrames_append, List.filterMap_append]
    exact List.foldl_append.symm
  rdmStore := by
    rw [h'.rdmStore, h.rdmStore, storyFrames_append, List.filterMap_append]
    exact List.foldl_append.symm

theorem note {event : Event} (other : event.topic ≠ .reception) (time : Micros) :
    Hears s [] (s.note time event) :=
  silent rfl (Journal.occasions_cons other) rfl rfl

theorem order (time : Micros) (order : Order) : Hears s [] (s.order time order) :=
  note (by cases order <;> simp [Event.topic]) time

theorem extend {entries : Journal} (lacks : Journal.Lacks .reception entries) :
    Hears s [] (s.extend entries) :=
  silent rfl (Journal.occasions_append lacks) rfl rfl

theorem withTransmitter (transmitter : Transmitter) : Hears s [] (s.withTransmitter transmitter) :=
  silent rfl rfl rfl rfl

theorem watch (time : Micros) (watchdog : Option Micros) : Hears s [] (s.watch time watchdog) :=
  silent rfl (Journal.occasions_cons (by cases watchdog <;> simp [alarmOrder, Event.topic])) rfl rfl

theorem sync (time : Micros) : Hears s [] (s.sync time) := by
  rw [Scene.sync]
  split
  · exact refl s
  · exact watch time _

/-- The receiver responds to a cause, and what it publishes is stored. -/
theorem attend (cause : Cause) {event : Event} {time : Micros} {receiver : Receiver}
    {frame : Option Frame} (attended : s.engine.receiver.attend cause time = .ok (receiver, frame))
    (heard : Journal.occasions (⟨time, event⟩ :: s.journal) =
      s.journal.occasions ++ [⟨cause, time, []⟩]) :
    Hears s [⟨cause, time, frame.toList⟩]
      (((s.note time event).withReceiver receiver).publish time frame) where
  follows := by
    rw [engine_publish]
    exact .cons attended rfl (.nil _)
  occasions := by
    rcases frame with - | frame | frame
    · exact heard
    · exact Journal.occasions_published (.dmx frame) heard
    · exact Journal.occasions_published (.rdm frame) heard
  dmxStore := by rcases frame with - | frame | frame <;> rfl
  rdmStore := by rcases frame with - | frame | frame <;> rfl

/-- Behind a story the newest frames are unread, of those that were unread and those published
in it. -/
theorem dmx_unread (h : Hears s first t)
    (few : s.dmxStore.lag + ((storyFrames first).filterMap Frame.dmx?).length <
      Frame.Store.counts) :
    t.dmxStore.unread =
      (s.dmxStore.unread ++ (storyFrames first).filterMap Frame.dmx?).rtake (2 ^ d) := by
  rw [h.dmxStore, Frame.Store.unread_pushAll few]

theorem rdm_unread (h : Hears s first t)
    (few : s.rdmStore.lag + ((storyFrames first).filterMap Frame.rdm?).length <
      Frame.Store.counts) :
    t.rdmStore.unread =
      (s.rdmStore.unread ++ (storyFrames first).filterMap Frame.rdm?).rtake (2 ^ r) := by
  rw [h.rdmStore, Frame.Store.unread_pushAll few]

end Hears

end Scene

variable {d r : Nat} {kinds : Step.Kind → Prop} {s t : Scene d r}

/-- An interrupt tells the receiver of at most one thing at a time. -/
theorem Step.hears (step : Step .interrupt s t) : ∃ story, s.Hears story t := by
  cases step with
  | readClock time => exact ⟨[], .note (by simp [Event.topic]) time⟩
  | sample time status => exact ⟨[], .note (by simp [Event.topic]) time⟩
  | hear _ heard => exact ⟨_, .attend (.signal _) heard rfl⟩
  | timeOut later served =>
      exact ⟨_, (Scene.Hears.attend .timeout served rfl).trans (.watch later none)⟩
  | sync time => exact ⟨[], .sync time⟩
  | @resume _ entries t continues =>
      exact ⟨_, (Scene.Hears.withTransmitter t).trans (.extend (continues.lacks (by decide)))⟩
  | pace later _ advances =>
      exact ⟨_, (((Scene.Hears.note (by simp [Event.topic]) _).trans (.withTransmitter _)).trans
        (.extend (advances.lacks (by decide)))).trans (.order later _)⟩
  | paceIdle time => exact ⟨[], .order time _⟩

/-- Whatever the interrupts did, there is a story that the receiver lived through. -/
theorem Steps.hears (steps : Steps (· = .interrupt) s t) : ∃ story, s.Hears story t := by
  induction steps with
  | refl => exact ⟨[], .refl s⟩
  | tail _ step ih =>
      obtain ⟨_, rfl, step⟩ := step
      obtain ⟨story, hears⟩ := ih
      obtain ⟨more, hears'⟩ := step.hears
      exact ⟨story ++ more, hears.trans hears'⟩

end Dmx512
