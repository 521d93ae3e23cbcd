import Dmx512.Proofs.Link.Hearing

/-!
# What a link publishes

Whatever happens to a link beside reading, its stores only take in the frames that
its journal says were published, in their order.
-/

namespace Dmx512

namespace Journal

variable {entry : Entry} {new earlier : Journal}

theorem publications_cons (other : entry.event.topic ≠ .reception) :
    publications (entry :: earlier) = publications earlier := by
  obtain ⟨time, event⟩ := entry
  cases event with
  | heard | published | receiveAlarm => contradiction
  | order | pin | clockRead | sampled | queued | turned | transmitAlarm => rfl

theorem publications_append (lacks : Lacks .reception new) :
    publications (new ++ earlier) = publications earlier := by
  induction new with
  | nil => rfl
  | cons entry rest ih =>
      obtain ⟨first, others⟩ := List.forall_mem_cons.mp lacks
      rw [List.cons_append, publications_cons first, ih others]

end Journal

namespace Scene

variable {d r : Nat} {s m t : Scene d r} {first second : List Frame}

/-- From `s` to `t` frames were published and stored, and none was taken. -/
structure Publishes (s : Scene d r) (frames : List Frame) (t : Scene d r) : Prop where
  publications : t.journal.publications = s.journal.publications ++ frames
  dmxStore : t.dmxStore = s.dmxStore.pushAll (frames.filterMap Frame.dmx?)
  rdmStore : t.rdmStore = s.rdmStore.pushAll (frames.filterMap Frame.rdm?)

namespace Publishes

theorem silent (publications : t.journal.publications = s.journal.publications)
    (dmxStore : t.dmxStore = s.dmxStore) (rdmStore : t.rdmStore = s.rdmStore) :
    Publishes s [] t :=
  ⟨publications.trans (List.append_nil _).symm, dmxStore, rdmStore⟩

theorem refl (s : Scene d r) : Publishes s [] s := silent rfl rfl rfl

theorem trans (h : Publishes s first m) (h' : Publishes m second t) :
    Publishes s (first ++ second) t where
  publications := by rw [h'.publications, h.publications, List.append_assoc]
  dmxStore := by
    rw [h'.dmxStore, h.dmxStore, List.filterMap_append]
    exact List.foldl_append.symm
  rdmStore := by
    rw [h'.rdmStore, h.rdmStore, List.filterMap_append]
    exact List.foldl_append.symm

theorem note {event : Event} (other : event.topic ≠ .reception) (time : Micros) :
    Publishes s [] (s.note time event) :=
  silent (Journal.publications_cons other) rfl rfl

theorem order (time : Micros) (order : Order) : Publishes s [] (s.order time order) :=
  note (by cases order <;> simp [Event.topic]) time

theorem extend {entries : Journal} (lacks : Journal.Lacks .reception entries) :
    Publishes s [] (s.extend entries) :=
  silent (Journal.publications_append lacks) rfl rfl

theorem withTransmitter (transmitter : Transmitter) :
    Publishes s [] (s.withTransmitter transmitter) :=
  silent rfl rfl rfl

theorem watch (time : Micros) (watchdog : Option Micros) :
    Publishes s [] (s.watch time watchdog) :=
  silent (Journal.publications_cons (by cases watchdog <;> simp [alarmOrder, Event.topic])) rfl rfl

theorem sync (time : Micros) : Publishes s [] (s.sync time) := by
  rw [Scene.sync]
  split
  · exact refl s
  · exact watch time _

/-- What the receiver hands over is stored. -/
theorem publish (time : Micros) (frame : Option Frame) :
    Publishes s frame.toList (s.publish time frame) := by
  rcases frame with - | frame | frame
  · exact refl s
  · exact ⟨rfl, rfl, rfl⟩
  · exact ⟨rfl, rfl, rfl⟩

theorem start (first second : Micros) : Publishes s [] (s.start first second) := by
  rw [Scene.start]
  split <;> exact silent rfl rfl rfl

theorem halt (first second third : Micros) : Publishes s [] (s.halt first second third) := by
  rw [Scene.halt]
  split
  · have synced := sync (s := (s.order first (.allowReceive false)).withReceiver
      s.engine.receiver.reset) second
    exact ⟨synced.publications, synced.dmxStore, synced.rdmStore⟩
  · exact silent rfl rfl rfl

end Publishes

end Scene

variable {d r : Nat} {kind : Step.Kind} {kinds : Step.Kind → Prop} {s t : Scene d r}

/-- Only reading takes frames from the stores. -/
theorem Step.publishes (step : Step kind s t) (other : kind ≠ .read) :
    ∃ frames, s.Publishes frames t := by
  cases step with
  | takeDmx | takeRdm | flush => exact absurd rfl other
  | configure | claim | release | requestStop | readClock | sample | paceIdle | queue | refuse
  | turn | setBreak | write => exact ⟨[], .silent rfl rfl rfl⟩
  | @hear _ signal time receiver frame =>
      have heard : s.Publishes [] ((s.note time (.heard signal)).withReceiver receiver) :=
        .silent rfl rfl rfl
      exact ⟨_, heard.trans (.publish time frame)⟩
  | @timeOut _ time receiver frame later =>
      have alarmed : s.Publishes [] ((s.note time .receiveAlarm).withReceiver receiver) :=
        .silent rfl rfl rfl
      exact ⟨_, (alarmed.trans (.publish time frame)).trans (.watch later none)⟩
  | sync time => exact ⟨_, .sync time⟩
  | resume continues =>
      exact ⟨_, (Scene.Publishes.withTransmitter _).trans (.extend (continues.lacks (by decide)))⟩
  | pace later _ advances =>
      exact ⟨_, (((Scene.Publishes.note (by simp [Event.topic]) _).trans (.withTransmitter _)).trans
        (.extend (advances.lacks (by decide)))).trans (.order later _)⟩
  | start first second => exact ⟨_, .start first second⟩
  | halt first second third => exact ⟨_, .halt first second third⟩

theorem Steps.publishes (steps : Steps kinds s t) (others : ¬ kinds .read) :
    ∃ frames, s.Publishes frames t := by
  induction steps with
  | refl => exact ⟨[], .refl s⟩
  | tail _ step ih =>
      obtain ⟨kind, within, step⟩ := step
      obtain ⟨frames, published⟩ := ih
      obtain ⟨more, published'⟩ := step.publishes fun same => others (same ▸ within)
      exact ⟨frames ++ more, published.trans published'⟩

end Dmx512
