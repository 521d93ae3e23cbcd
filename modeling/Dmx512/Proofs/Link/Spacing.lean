import Dmx512.Proofs.Link.Sending
import Dmx512.Proofs.Reception.Ending

/-!
# The spacing between RDM frames

A link knows when the latest RDM frame ended that its journal tells of. So a frame that is
sent by hand, behind a wait for the spacing, keeps it to the frame that was the latest when
the wait began. A frame that ends during the wait is not waited for.
-/

namespace Dmx512

namespace Journal

variable {entry : Entry} {new since earlier : Journal}

/-- When the latest RDM frame was published, if one was. -/
def rdmEnd? : Journal → Option Micros
  | [] => none
  | ⟨time, .published (.rdm _)⟩ :: _ => some time
  | _ :: earlier => rdmEnd? earlier

theorem rdmEnd?_cons (other : entry.event.topic ≠ .reception) :
    rdmEnd? (entry :: earlier) = rdmEnd? earlier := by
  obtain ⟨time, event⟩ := entry
  cases event with
  | heard | published | receiveAlarm => contradiction
  | order | pin | clockRead | sampled | queued | turned | transmitAlarm => rfl

theorem rdmEnd?_append (lacks : Lacks .reception new) :
    rdmEnd? (new ++ earlier) = rdmEnd? earlier := by
  induction new with
  | nil => rfl
  | cons entry rest ih =>
      obtain ⟨first, others⟩ := List.forall_mem_cons.mp lacks
      rw [List.cons_append, rdmEnd?_cons first, ih others]

/-- Behind the latest RDM frame none was published. -/
theorem rdmEnd?_behind (none_since : rdmEnd? since = none) :
    rdmEnd? (since ++ earlier) = rdmEnd? earlier := by
  induction since with
  | nil => rfl
  | cons entry rest ih =>
      obtain ⟨time, event⟩ := entry
      cases event with
      | published frame =>
          cases frame with
          | dmx => exact ih none_since
          | rdm => cases none_since
      | heard | receiveAlarm | order | pin | clockRead | sampled | queued | turned
      | transmitAlarm => exact ih none_since

/-- What is put on the line behind a silent part of a journal comes behind all of it. -/
theorem Silent.ahead_of_shown {waited sent later before : Journal} (silent : waited.Silent)
    (shown : entry.event.topic = .lineBreak ∨ entry.event.topic = .byte)
    (whole : later ++ entry :: before = sent ++ waited) :
    ∃ between, before = between ++ waited := by
  have hidden (mem : entry ∈ waited) : False :=
    shown.elim (silent.lineBreak entry mem) (silent.byte entry mem)
  rcases List.append_eq_append_iff.mp whole with ⟨rest, _, behind⟩ | ⟨rest, _, behind⟩
  · cases rest with
    | nil =>
        rw [List.nil_append] at behind
        exact (hidden (behind ▸ List.mem_cons_self)).elim
    | cons first rest => exact ⟨rest, (List.cons.inj behind).2⟩
  · rw [behind] at hidden
    exact (hidden (by simp)).elim

end Journal

section

variable {d r : Nat} {kind : Step.Kind} {kinds : Step.Kind → Prop} {s m t : Scene d r}

namespace Scene

/-- The link knows when the latest RDM frame ended that its journal tells of. -/
def Dated (s : Scene d r) : Prop :=
  ∀ time, s.journal.rdmEnd? = some time → s.engine.receiver.counters.rdmReceiveEnd = time

namespace Dated

theorem extend (h : s.Dated) {entries : Journal} (lacks : entries.Lacks .reception) :
    (s.extend entries).Dated := by
  intro time ended
  rw [Scene.extend, Journal.rdmEnd?_append lacks] at ended
  exact h time ended

theorem watch (h : s.Dated) (time : Micros) (watchdog : Option Micros) :
    (s.watch time watchdog).Dated := by
  cases watchdog <;> exact h

theorem sync (h : s.Dated) (time : Micros) : (s.sync time).Dated := by
  rw [Scene.sync]
  split
  · exact h
  · exact h.watch time _

/-- A receiver that keeps the end of the latest frame keeps the link dated. -/
theorem publish {receiver : Receiver} {frame : Option Frame} (h : s.Dated) (time : Micros)
    (dates : receiver.counters.rdmReceiveEnd =
      latestEnd s.engine.receiver.counters.rdmReceiveEnd time frame) :
    ((s.withReceiver receiver).publish time frame).Dated := by
  intro ending ended
  rcases frame with - | frame | frame
  · exact dates.trans (h ending ended)
  · exact dates.trans (h ending ended)
  · cases ended
    exact dates

theorem start (h : s.Dated) (first second : Micros) : (s.start first second).Dated := by
  rw [Scene.start]
  split <;> exact h

theorem halt (h : s.Dated) (first second third : Micros) : (s.halt first second third).Dated := by
  rw [Scene.halt]
  split
  · have masked : ((s.order first (.allowReceive false)).withReceiver
        s.engine.receiver.reset).Dated := h
    exact masked.sync second
  · exact h

end Dated

end Scene

/-- Whatever happens to a link, it knows when the latest RDM frame ended. -/
theorem Step.dated (step : Step kind s t) (h : s.Dated) : t.Dated := by
  cases step with
  | configure | takeDmx | takeRdm | flush | claim | release | requestStop | readClock | sample
  | paceIdle | queue | refuse | turn | setBreak | write => exact h
  | @hear _ signal time receiver frame _ heard =>
      have noted : (s.note time (.heard signal)).Dated := h
      exact noted.publish time (Receiver.dates_hear signal receiver frame heard)
  | @timeOut _ time receiver frame later served =>
      have noted : (s.note time .receiveAlarm).Dated := h
      exact (noted.publish time (Receiver.dates_onTimeout receiver frame served)).watch later none
  | sync time => exact h.sync time
  | @resume _ _ transmitter continues =>
      have moved : (s.withTransmitter transmitter).Dated := h
      exact moved.extend (continues.lacks (by decide))
  | @pace _ now _ transmitter next later _ advances =>
      have moved : ((s.note now (.transmitAlarm s.engine.transmitter.state)).withTransmitter
        transmitter).Dated := h
      have advanced := moved.extend (advances.lacks (by decide))
      cases next <;> exact advanced
  | start first second => exact h.start first second
  | halt first second third => exact h.halt first second third

theorem Steps.dated (steps : Steps kinds s t) (h : s.Dated) : t.Dated := by
  induction steps with
  | refl => exact h
  | tail _ step ih =>
      obtain ⟨_, _, step⟩ := step
      exact step.dated ih

namespace Scene

variable {frame : Except MessageError (List UInt8)} {withBreak : Bool} {spacing : Micros}
variable {outcome : Outcome Unit}

/-- What is put on the line behind a wait keeps the spacing to the RDM frame that was the
latest when the wait began. -/
theorem Delivers.spaced (h : s.Delivers frame withBreak spacing outcome t) (steady : s.Steady)
    (present : s.engine.attached = true) (dated : s.Dated) (small : spacing.toNat ≤ 2147483648)
    {later before since earlier : Journal} {entry : Entry} {ending : Micros} {message : RdmFrame}
    (journal : t.journal = later ++ entry :: before ++ s.journal)
    (shown : entry.event.topic = .lineBreak ∨ entry.event.topic = .byte)
    (ended : s.journal = since ++ ⟨ending, .published (.rdm message)⟩ :: earlier)
    (latest : since.rdmEnd? = none) :
    spacing.toNat ≤ Journal.duration
      (entry :: (before ++ since ++ [⟨ending, .published (.rdm message)⟩])) := by
  cases h with
  | streams | malformed => exact absurd (congrArg List.length journal) (by simp; omega)
  | @sends _ _ m _ quiet _ spaces transmits =>
      obtain ⟨waited, journal', spaced⟩ := spaces.spaced small
      obtain ⟨silenced, journal'', silent⟩ := spaces.waits.silent steady.wired quiet
      obtain rfl := List.append_cancel_right (journal'.symm.trans journal'')
      obtain ⟨steady', present'⟩ := Delivers.waited spaces.waits steady present
      obtain ⟨sent, older⟩ := (transmits.steps steady' present').journal_suffix
      have whole : later ++ entry :: before = sent ++ waited := by
        rw [← older, journal', ← List.append_assoc] at journal
        exact (List.append_cancel_right journal).symm
      obtain ⟨between, rfl⟩ := silent.ahead_of_shown shown whole
      have known : ending = s.engine.receiver.counters.rdmReceiveEnd := by
        apply (dated ending _).symm
        rw [ended, Journal.rdmEnd?_behind latest]
        rfl
      have longer := Journal.duration_le_append_left (entry :: between)
        (waited ++ since ++ [⟨ending, .published (.rdm message)⟩])
      rw [List.append_assoc between, List.append_assoc between]
      exact Nat.le_trans (spaced since _ earlier ended known) longer

end Scene

end

end Dmx512
