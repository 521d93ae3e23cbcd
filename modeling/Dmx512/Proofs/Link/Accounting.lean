import Dmx512.Proofs.Line.Accounting
import Dmx512.Proofs.Link.Framing
import Dmx512.Proofs.Link.Receiving

/-!
# Every packet is counted once

A packet is counted with its start code, and its frame is completed later: by a timeout, by a
break, by a slot or by a checksum. `Receiver.Tallies` says how a receiver stands to what was
told: its counters are what the journal tells, a frame under construction began with the start
code counted last, and what is captured of a discovery response is what was told last. Each
response keeps it and completes only what is accounted for, and so does all else that can
happen to a link.

Overruns are counted by the transmitter, one with each late alarm.
-/

namespace Dmx512

open Standard

namespace Journal

/-- The DMX packets and the RDM packets that were counted, as counters that wrap. -/
def counted (journal : Journal) : UInt32 × UInt32 :=
  (UInt32.ofNat (journal.packets dmxStartCode), UInt32.ofNat (journal.packets rdmStartCode))

variable {entry : Entry} {earlier journal : Journal} {captured : List UInt8}

theorem counted_congr (uncounted : ∀ code, packets code journal = packets code earlier) :
    journal.counted = earlier.counted := by
  rw [counted, uncounted, uncounted, counted]

theorem counted_cons (silent : entry.event.tells? = none) :
    counted (entry :: earlier) = earlier.counted :=
  counted_congr (packets_cons silent)

/-- What is captured with a byte that is not counted was told last. -/
theorem EndsUncounted.capture (h : earlier.EndsUncounted captured)
    (unawaited : ¬ earlier.AwaitsCode) (time : Micros) (byte : UInt8) :
    EndsUncounted (Discovery.capture captured byte) (⟨time, .heard (.byte byte)⟩ :: earlier) := by
  rw [Discovery.capture]
  split
  · exact endsUncounted_nil _
  · exact h.heard unawaited time byte

end Journal

namespace Receiver

open Discovery

variable {r t : Receiver} {now : Micros} {frame : Option Frame} {entry : Entry}
variable {earlier journal : Journal}

/-- What a receiver has captured was told last, and none of it was counted. -/
def CapturesLast (r : Receiver) (journal : Journal) : Prop :=
  ∃ captured, r.Scans captured ∧ Begun captured ∧ journal.EndsUncounted captured

/-- How a receiver stands to what was told. -/
structure Tallies (r : Receiver) (journal : Journal) : Prop where
  /-- A start code is awaited where a break was told last. -/
  awaits : journal.AwaitsCode ↔ r.state = .lineBreak
  /-- Counters are what the journal tells. -/
  packets : r.counters.packets = journal.counted
  slots : r.state = .dmxData → journal.Opened dmxStartCode
  message : r.state.IsMessage → journal.Opened rdmStartCode
  response : r.state.IsDiscovery → r.CapturesLast journal

def IsBare (r : Receiver) : Prop := r.state = .idle ∨ r.state = .lineBreak

/-- How a receiver stands to what was told when it has responded, before the frame that it
completed is told. -/
structure Settles (t : Receiver) (frame : Option Frame) (journal : Journal) : Prop where
  tallies : t.Tallies journal
  accounts : ∀ completed, frame = some completed → journal.Accounts completed
  completed : frame.isSome → t.IsBare

namespace Tallies

/-- Without a frame under construction the counters matter, and whether a start code is
awaited. -/
theorem of_bare (bare : r.IsBare) (awaits : journal.AwaitsCode ↔ r.state = .lineBreak)
    (packets : r.counters.packets = journal.counted) : r.Tallies journal := by
  refine ⟨awaits, packets, ?_, ?_, ?_⟩ <;> rcases bare with state | state <;> rw [state] <;>
    exact nofun

/-- What tells a receiver nothing and completes no frame that was counted changes nothing. -/
theorem cons (h : r.Tallies earlier) (silent : entry.event.tells? = none)
    (incomplete : ∀ frame, entry.event = .published frame → frame.startCode? = none) :
    r.Tallies (entry :: earlier) where
  awaits := by
    rw [Journal.AwaitsCode, Journal.told_cons silent]
    exact h.awaits
  packets := h.packets.trans (Journal.counted_cons silent).symm
  slots state := (h.slots state).cons (Journal.packets_cons silent) incomplete
  message state := (h.message state).cons (Journal.packets_cons silent) incomplete
  response state :=
    have ⟨captured, scans, begun, last⟩ := h.response state
    ⟨captured, scans, begun, last.cons silent⟩

/-- A frame that is published leaves no frame under construction. -/
theorem published (h : r.Tallies earlier) (bare : r.IsBare) (time : Micros) (frame : Frame) :
    r.Tallies (⟨time, .published frame⟩ :: earlier) := by
  have silent : (Event.published frame).tells? = none := rfl
  refine of_bare bare ?_ (h.packets.trans (Journal.counted_cons silent).symm)
  rw [Journal.AwaitsCode, Journal.told_cons silent]
  exact h.awaits

/-- Between packets nothing is captured yet. -/
theorem capturesLast (h : r.Tallies earlier) (between : r.state = .idle ∨ r.state.IsDiscovery) :
    r.CapturesLast earlier := by
  rcases between with idle | discovery
  · exact ⟨[], .idle idle rfl, .inl rfl, Journal.endsUncounted_nil _⟩
  · exact h.response discovery

/-- A start code is counted. -/
theorem startCode (h : r.Tallies earlier) {code : UInt8} (awaited : r.state = .lineBreak)
    (began : r.onStartCode code now = .ok t) :
    t.Settles none (⟨now, .heard (.byte code)⟩ :: earlier) := by
  have begins := begins_onStartCode began
  have awaits := h.awaits.mpr awaited
  have opened : Journal.Opened code (⟨now, .heard (.byte code)⟩ :: earlier) := .of_heard awaits now
  refine ⟨⟨?_, ?_, ?_, ?_, fun discovery => absurd discovery begins.other⟩, nofun, nofun⟩
  · rw [Journal.awaitsCode_heard]
    exact iff_of_false (by simp) begins.behind
  · have counts (other : UInt8) : UInt32.ofNat
        (Journal.packets other (⟨now, .heard (.byte code)⟩ :: earlier)) =
          UInt32.ofNat (earlier.packets other) + if code = other then 1 else 0 := by
      rw [Journal.packets_heard, UInt32.ofNat_add]
      by_cases same : code = other
      · rw [if_pos ⟨awaits, same ▸ rfl⟩, if_pos same]
        rfl
      · rw [if_neg fun h => same (Signal.byte.inj h.2), if_neg same]
        rfl
    obtain ⟨dmx, rdm⟩ := Prod.mk.inj h.packets
    rw [begins.packets, Journal.counted, counts, counts, ← dmx, ← rdm]
  · intro slots
    rwa [← begins.slots slots]
  · intro message
    rwa [← begins.message message]

/-- A byte that is no start code goes on with a capture, or completes it. -/
theorem byte_of_captures (wf : r.WellFormed) {value : UInt8} (captures : r.CapturesLast earlier)
    (unawaited : ¬ earlier.AwaitsCode)
    (attended : r.attend (.signal (.byte value)) now = .ok (t, frame)) :
    t.CapturesLast (⟨now, .heard (.byte value)⟩ :: earlier) ∧ ∀ published : RdmFrame,
      frame = some (.rdm published) →
        Journal.Accounts (.rdm published) (⟨now, .heard (.byte value)⟩ :: earlier) := by
  obtain ⟨captured, scans, begun, last⟩ := captures
  obtain ⟨_, _, ended, goesOn⟩ := scans.byte wf value now
  cases attended.symm.trans ended
  have last' := last.capture unawaited now value
  split at goesOn
  · rename_i complete
    obtain ⟨rfl, scans'⟩ := goesOn
    refine ⟨⟨[], scans', .inl rfl, Journal.endsUncounted_nil _⟩, ?_⟩
    rintro published ⟨⟩
    have kind : RdmFrame.kind { data := capture captured value } = .discoveryResponse :=
      if_pos ((begun.capture value).head?_of_isWhole complete)
    rw [Journal.Accounts, kind]
    exact last'
  · obtain ⟨rfl, scans'⟩ := goesOn
    exact ⟨⟨_, scans', begun.capture value, last'⟩, nofun⟩

/-- A byte that is no start code goes on with what is under construction, or completes it. -/
theorem byte (h : r.Tallies earlier) (wf : r.WellFormed) {value : UInt8}
    (behind : r.state ≠ .lineBreak) (served : r.onByte value now = .ok (t, frame)) :
    t.Settles frame (⟨now, .heard (.byte value)⟩ :: earlier) := by
  have proceeds := wf.proceeds behind served
  have unawaited : ¬ earlier.AwaitsCode := mt h.awaits.mp behind
  have uncounted := Journal.packets_unawaited unawaited now (.byte value)
  have slots (state : r.state = .dmxData) :
      Journal.Opened dmxStartCode (⟨now, .heard (.byte value)⟩ :: earlier) :=
    (h.slots state).cons uncounted nofun
  have message (state : r.state.IsMessage) :
      Journal.Opened rdmStartCode (⟨now, .heard (.byte value)⟩ :: earlier) :=
    (h.message state).cons uncounted nofun
  have captures (between : r.state = .idle ∨ r.state.IsDiscovery) :=
    byte_of_captures wf (h.capturesLast between) unawaited served
  refine ⟨⟨?_, ?_, fun state => slots (proceeds.slots state),
    fun state => message (proceeds.message state),
    fun discovery => (captures (proceeds.response discovery)).1⟩, ?_,
    fun some => .inl (proceeds.completed some)⟩
  · rw [Journal.awaitsCode_heard]
    exact iff_of_false (by simp) proceeds.behind
  · exact (proceeds.packets.trans h.packets).trans (Journal.counted_congr uncounted).symm
  · rintro (completed | completed) rfl
    · exact slots (proceeds.dmx completed rfl).1
    · rcases proceeds.rdm completed rfl with low | sum
      · have low' := served
        rw [Receiver.onByte, low] at low'
        obtain ⟨whole, framed, data⟩ := wf.framed_of_onChecksumLow low low'
        rw [Journal.Accounts, RdmFrame.kind_of_framed framed data]
        exact message (by rw [low]; trivial)
      · exact (captures (.inr (by rw [sum]; trivial))).2 completed rfl

/-- Whatever a receiver hears, what it completes is accounted for. -/
theorem hear (h : r.Tallies earlier) (wf : r.WellFormed) {signal : Signal}
    (heard : r.hear signal now = .ok (t, frame)) :
    t.Settles frame (⟨now, .heard signal⟩ :: earlier) := by
  have attended : r.attend (.signal signal) now = .ok (t, frame) := heard
  -- A break and a damaged byte are not counted, and neither leaves a frame under construction.
  have uncounted (other : ∀ code, signal ≠ .byte code) (code : UInt8) :
      Journal.packets code (⟨now, .heard signal⟩ :: earlier) = earlier.packets code := by
    rw [Journal.packets_heard, if_neg fun h => other code h.2, Nat.add_zero]
  have counted (other : ∀ code, signal ≠ .byte code) :=
    (Journal.counted_congr (uncounted other)).symm
  cases wf.responds attended with
  | lineBreak counters packets ends =>
      have bare : IsBare
          { r with state := .lineBreak, deadline := none, breakTime := now, counters } := .inr rfl
      refine ⟨of_bare bare (iff_of_true ?_ rfl) ((packets.trans h.packets).trans (counted nofun)),
        ?_, fun _ => bare⟩
      · exact (Journal.awaitsCode_heard ..).mpr rfl
      · rintro completed rfl
        obtain ⟨slots, shown⟩ := ends.resolve_left nofun
        obtain rfl := Option.some_inj.mp shown
        exact (h.slots slots).cons (uncounted nofun) nofun
  | damaged =>
      refine ⟨of_bare (.inl rfl) (iff_of_false ?_ (by simp [dropFrame]))
        (h.packets.trans (counted nofun)), nofun, nofun⟩
      exact mt (Journal.awaitsCode_heard ..).mp (by simp)
  | startCode awaited began => exact h.startCode awaited began
  | byte behind served => exact h.byte wf behind served

/-- A timeout completes a DMX frame, or nothing. -/
theorem timeOut (h : r.Tallies earlier) (wf : r.WellFormed)
    (served : r.onTimeout now = .ok (t, frame)) :
    t.Settles frame (⟨now, .receiveAlarm⟩ :: earlier) := by
  have h' : r.Tallies (⟨now, .receiveAlarm⟩ :: earlier) := h.cons rfl nofun
  rcases wf.onTimeout_cases served with ⟨rfl, rfl⟩ | ⟨slots, rfl, counters, packets, rfl⟩
  · exact ⟨h', nofun, nofun⟩
  · refine ⟨of_bare (.inl rfl) ?_ (packets.trans h'.packets), ?_, fun _ => .inl rfl⟩
    · rw [h'.awaits, slots]
      simp
    · rintro _ ⟨⟩
      exact h'.slots slots

end Tallies

end Receiver

theorem Event.IsApart.tells?_eq_none {event : Event} (apart : event.IsApart) :
    event.tells? = none := by
  cases event with
  | order order =>
      cases order with
      | allowReceive => exact apart.elim
      | setBreak | allowTransmit | clearReceive | write | setAlarm | cancelAlarm => rfl
  | heard | published | receiveAlarm => exact apart.elim
  | pin | clockRead | sampled | queued | turned | transmitAlarm => rfl

namespace Scene

variable {d r : Nat} {s t : Scene d r}

/-- The packets that a link counted are those that its journal tells, and what it heard and
published is accounted for. -/
structure Tallies (s : Scene d r) : Prop where
  receiver : s.engine.receiver.Tallies s.journal
  accounted : s.journal.Accounted

namespace Tallies

/-- What tells a receiver nothing and completes no frame changes nothing. -/
theorem extend (h : s.Tallies) (new : Journal) (journal : t.journal = new ++ s.journal)
    (receiver : t.engine.receiver = s.engine.receiver)
    (silent : ∀ entry ∈ new, entry.event.tells? = none ∧ ∀ frame, entry.event ≠ .published frame) :
    t.Tallies := by
  obtain ⟨tallies, accounted⟩ := h
  rw [← receiver] at tallies
  suffices t.engine.receiver.Tallies t.journal ∧ t.journal.Accounted from ⟨this.1, this.2⟩
  rw [journal]
  clear journal
  induction new with
  | nil => exact ⟨tallies, accounted⟩
  | cons entry rest ih =>
      obtain ⟨⟨first, other⟩, others⟩ := List.forall_mem_cons.mp silent
      obtain ⟨tallies', accounted'⟩ := ih others
      refine ⟨tallies'.cons first fun frame same => absurd same (other frame),
        accounted'.cons ?_ fun frame same => absurd same (other frame)⟩
      intro signal same
      rw [same] at first
      cases first

/-- A receiver that has responded publishes what it completed. -/
theorem publish {time : Micros} {frame : Option Frame}
    (settles : s.engine.receiver.Settles frame s.journal) (accounted : s.journal.Accounted) :
    (s.publish time frame).Tallies := by
  cases frame with
  | none => exact ⟨settles.tallies, accounted⟩
  | some completed =>
      have tallies := settles.tallies.published (settles.completed rfl) time completed
      have accounted' : Journal.Accounted (⟨time, .published completed⟩ :: s.journal) :=
        accounted.cons nofun fun frame same =>
          settles.accounts frame (Event.published.inj same ▸ rfl)
      cases completed with
      | dmx | rdm => exact ⟨tallies, accounted'⟩

theorem watch (h : s.Tallies) (time : Micros) (watchdog : Option Micros) :
    (s.watch time watchdog).Tallies := by
  refine h.extend [⟨time, .order (alarmOrder .receiveTimeout watchdog)⟩] rfl rfl ?_
  cases watchdog <;> simp [alarmOrder, Event.tells?]

theorem sync (h : s.Tallies) (time : Micros) : (s.sync time).Tallies := by
  rw [Scene.sync]
  split
  · exact h
  · exact h.watch time _

end Tallies

/-- Whatever can happen to a receiver, what it counts is told. -/
theorem Receives.tallies (h : s.Receives t) (sound : s.Sound) (wired : s.Wired)
    (tallies : s.Tallies) : t.Tallies := by
  cases h with
  | apart apart =>
      obtain ⟨new, journal, others⟩ := apart.journal
      refine tallies.extend new journal apart.receiver fun entry mem => ?_
      have other := others entry mem
      exact ⟨other.tells?_eq_none, fun frame same => by rw [same] at other; exact other⟩
  | @hear signal time receiver frame receiving heard =>
      have told : Journal.Accounted (⟨time, .heard signal⟩ :: s.journal) :=
        tallies.accounted.cons (fun _ _ => wired.receive.trans receiving) nofun
      exact .publish (tallies.receiver.hear sound.receiver heard) told
  | @timeOut time receiver frame later served =>
      have told : Journal.Accounted (⟨time, .receiveAlarm⟩ :: s.journal) :=
        tallies.accounted.cons nofun nofun
      exact (Tallies.publish (tallies.receiver.timeOut sound.receiver served) told).watch later none
  | sync time => exact tallies.sync time
  | start input stopped first second =>
      have idle := wired.deaf (receiving_of_stopped stopped)
      have reset : s.engine.receiver.reset.Tallies s.journal := by
        refine .of_bare (.inl rfl) ?_ tallies.receiver.packets
        rw [tallies.receiver.awaits, idle]
        rfl
      rw [start_input _ _ input]
      have told : (s.withReceiver s.engine.receiver.reset).Tallies := ⟨reset, tallies.accounted⟩
      refine told.extend [⟨second, .order (.allowReceive true)⟩, ⟨first, .order .clearReceive⟩]
        rfl rfl ?_
      simp [Event.tells?]
  | halt input first second third =>
      have stopped : ((s.order first (.allowReceive false)).withReceiver
          s.engine.receiver.reset).Tallies := by
        have awaitsNone : s.engine.receiver.reset.state ≠ .lineBreak := by simp [Receiver.reset]
        refine ⟨.of_bare (.inl rfl) (iff_of_false ?_ awaitsNone) ?_,
          tallies.accounted.cons nofun nofun⟩
        · exact Journal.awaitsCode_stopped first s.journal
        · exact tallies.receiver.packets.trans
            (Journal.counted_congr (Journal.packets_stopped first)).symm
      rw [halt_input _ _ _ input]
      exact (stopped.sync second).extend [] rfl rfl nofun

def TellsOverruns (s : Scene d r) : Prop :=
  s.engine.transmitter.overruns = UInt32.ofNat s.journal.lateAlarms

namespace TellsOverruns

theorem note (h : s.TellsOverruns) {event : Event} (timely : event ≠ .transmitAlarm .data)
    (time : Micros) : (s.note time event).TellsOverruns := by
  have one : ∀ entry ∈ [(⟨time, event⟩ : Entry)], ¬ entry.IsLate :=
    List.forall_mem_singleton.mpr timely
  have same : (s.note time event).journal = [⟨time, event⟩] ++ s.journal := rfl
  rw [TellsOverruns, same, Journal.lateAlarms_append, Journal.lateAlarms_eq_zero one, Nat.zero_add]
  exact h

theorem order (h : s.TellsOverruns) (time : Micros) (order : Order) :
    (s.order time order).TellsOverruns :=
  h.note (by simp) time

theorem sync (h : s.TellsOverruns) (time : Micros) : (s.sync time).TellsOverruns := by
  rw [Scene.sync]
  split
  · exact h
  · exact h.order time _

theorem start (h : s.TellsOverruns) (first second : Micros) :
    (s.start first second).TellsOverruns := by
  rw [Scene.start]
  split
  · have reset : (s.withReceiver s.engine.receiver.reset).TellsOverruns := h
    exact (reset.order first _).order second _
  · have started : (s.withTransmitter s.engine.transmitter.start).TellsOverruns := h
    exact (started.note (by simp) first).order second _

theorem halt (h : s.TellsOverruns) (first second third : Micros) :
    (s.halt first second third).TellsOverruns := by
  rw [Scene.halt]
  split
  · have masked : ((s.order first (.allowReceive false)).withReceiver
        s.engine.receiver.reset).TellsOverruns := h.order first _
    exact masked.sync second
  · have stopped : (((s.order first (.allowTransmit false)).order second
        (.setBreak false)).withTransmitter s.engine.transmitter.stop).TellsOverruns :=
      (h.order first _).order second _
    exact stopped.order third _

end TellsOverruns

end Scene

section

variable {d r : Nat} {kind : Step.Kind} {kinds : Step.Kind → Prop} {s t : Scene d r}

/-- Whatever happens to a link, the packets that it counts are told. -/
theorem Steps.tallies (steps : Steps kinds s t) (sound : s.Sound) (wired : s.Wired)
    (tallies : s.Tallies) : t.Tallies := by
  induction steps with
  | refl => exact tallies
  | tail before step ih =>
      obtain ⟨_, _, step⟩ := step
      exact step.receives.tallies (Steps.sound before sound) (Steps.wired before wired) ih

/-- Only an alarm of the transmit sequence is ever late. -/
theorem Step.tellsOverruns (step : Step kind s t) (sound : s.Sound) (tells : s.TellsOverruns) :
    t.TellsOverruns := by
  by_cases calm : kind.IsCalm
  · obtain ⟨new, sends⟩ := step.sends calm sound (.refl s)
    rw [Scene.TellsOverruns, sends.overruns, tells, sends.journal, Journal.lateAlarms_append,
      Nat.add_comm, UInt32.ofNat_add]
  · cases step with
    | readClock | sample | hear | timeOut | sync | resume | pace | paceIdle | queue | configure
    | takeDmx | takeRdm | flush => simp [Step.Kind.IsCalm] at calm
    | claim | release | requestStop => exact tells
    | refuse time => exact tells.note (by simp) time
    | turn driven time direction =>
        have turned : Scene.TellsOverruns { s with engine := { s.engine with direction } } := tells
        exact (turned.note (by simp) driven).note (by simp) time
    | start first second => exact tells.start first second
    | halt first second third => exact tells.halt first second third
    | setBreak time | write time => exact tells.order time _

theorem Steps.tellsOverruns (steps : Steps kinds s t) (sound : s.Sound) (tells : s.TellsOverruns) :
    t.TellsOverruns := by
  induction steps with
  | refl => exact tells
  | tail before step ih =>
      obtain ⟨_, _, step⟩ := step
      exact step.tellsOverruns (Steps.sound before sound) ih

end

end Dmx512
