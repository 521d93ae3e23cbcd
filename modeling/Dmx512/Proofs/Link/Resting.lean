import Dmx512.Proofs.Link.Watching

/-!
# A link at rest

Where the sequencer of a link is stopped, receiver and transmitter are idle, the line is
released, and no interrupt and no alarm is asked for. Interrupts that are served all the same
leave the link at rest: none of them publishes a frame, writes a byte or puts a break on the
line.
-/

namespace Dmx512

/-- An event other than a frame that is published, a byte that is written and a break that
begins. -/
def Event.IsInert : Event → Prop
  | .published _ | .order (.write _) | .order (.setBreak true) => False
  | _ => True

/-- Nothing was published or sent. -/
def Journal.Inert (entries : Journal) : Prop := ∀ entry ∈ entries, entry.event.IsInert

theorem Journal.Inert.append {entries others : Journal} (h : entries.Inert) (h' : others.Inert) :
    (entries ++ others).Inert := by
  intro entry mem
  rcases List.mem_append.mp mem with mem | mem
  · exact h entry mem
  · exact h' entry mem

theorem isInert_alarmOrder (alarm : Alarm) (deadline : Option Micros) :
    (Event.order (alarmOrder alarm deadline)).IsInert := by
  cases deadline <;> trivial

namespace Scene

variable {d r : Nat} {s t : Scene d r}

/-- Nothing goes on at a link, and its hardware was told so. -/
structure AtRest (s : Scene d r) : Prop where
  stopped : s.engine.running = false
  receiver : s.engine.receiver.state = .idle
  transmitter : s.engine.transmitter.state = .idle
  released : s.journal.breakAsserted = false
  receive : s.journal.receiveAllowed = false
  transmit : s.journal.transmitAllowed = false
  disarmed : ∀ alarm, s.journal.alarm? alarm = none

/-- A link that has stopped is at rest. -/
theorem Steady.atRest (h : s.Steady) (watched : s.Watched) (stopped : s.engine.running = false) :
    s.AtRest := by
  obtain ⟨quiet, deaf, transmitter, receiver⟩ := h.wired.at_rest stopped
  have transmit : s.journal.transmitAllowed = decide (s.engine.transmitter.state = .data) :=
    h.wired.transmit
  refine ⟨stopped, receiver, transmitter, h.settled.released stopped, ?_, ?_, fun alarm => ?_⟩
  · exact Eq.trans h.wired.receive deaf
  · rw [transmit, transmitter]
    rfl
  · cases alarm with
    | transmit => exact h.wired.disarmed quiet
    | receiveTimeout => exact watched.armed.trans (watched.idle deaf)

/-- A link has only inert entries added to its journal. -/
def Dozes (s t : Scene d r) : Prop := ∃ new, t.journal = new ++ s.journal ∧ new.Inert

namespace Dozes

theorem refl (s : Scene d r) : s.Dozes s := ⟨[], rfl, nofun⟩

theorem trans {u : Scene d r} (h : s.Dozes t) (h' : t.Dozes u) : s.Dozes u := by
  obtain ⟨new, journal, inert⟩ := h
  obtain ⟨later, journal', inert'⟩ := h'
  exact ⟨later ++ new, by rw [journal', journal, List.append_assoc], inert'.append inert⟩

theorem of_entry {entry : Entry} (journal : t.journal = entry :: s.journal)
    (inert : entry.event.IsInert) : s.Dozes t :=
  ⟨[entry], journal, List.forall_mem_singleton.mpr inert⟩

end Dozes

/-- A station that does not attach does nothing on the line. -/
theorem Attaches.dozes {config : Config} {refusal : Refusal}
    (h : s.Attaches config (.error refusal) t) : s.Dozes t := by
  cases h with
  | occupied => exact .refl s
  | refused => exact .of_entry rfl trivial

end Scene

section

variable {d r : Nat} {s t : Scene d r}

/-- No interrupt does anything on the line of a stopped link. -/
theorem Step.dozes (step : Step .interrupt s t) (wired : s.Wired)
    (stopped : s.engine.running = false) : s.Dozes t := by
  obtain ⟨quiet, deaf, transmitter, receiver⟩ := wired.at_rest stopped
  cases step with
  | readClock | sample | paceIdle => exact .of_entry rfl trivial
  | hear receiving =>
      rw [deaf] at receiving
      contradiction
  | pace later sending =>
      rw [quiet] at sending
      contradiction
  | resume continues =>
      cases continues with
      | whole _ phase | part phase =>
          rw [transmitter] at phase
          contradiction
  | @timeOut _ time _ _ later served =>
      cases (Receiver.onTimeout_idle receiver time).symm.trans served
      refine ⟨[⟨later, .order (.cancelAlarm .receiveTimeout)⟩, ⟨time, .receiveAlarm⟩], rfl, ?_⟩
      intro entry mem
      rcases List.mem_pair.mp mem with rfl | rfl <;> trivial
  | sync time =>
      rw [Scene.sync]
      split
      · exact .refl s
      · exact .of_entry rfl (isInert_alarmOrder _ _)

theorem Steps.dozes (steps : Steps (· = .interrupt) s t) (wired : s.Wired)
    (stopped : s.engine.running = false) : s.Dozes t := by
  induction steps with
  | refl => exact .refl s
  | tail steps step ih =>
      obtain ⟨_, rfl, step⟩ := step
      obtain ⟨_, running, _⟩ := Scene.standing_iff.mp (Steps.standing_eq steps nofun)
      exact ih.trans (step.dozes (Steps.wired steps wired) (running.trans stopped))

end

end Dmx512
