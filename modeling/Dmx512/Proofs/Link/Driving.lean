import Dmx512.Proofs.Line.Safety
import Dmx512.Proofs.Link.Sending

/-!
# Who drives the line

The sequence of the output, room in the interface and the foreground all put bytes
and breaks on one line, and the foreground moves the pin between them. Every step
of a link keeps its journal safe; and a frame sent by hand in full leaves entries
that hand the line back.
-/

namespace Dmx512

open Step.Kind (IsManual)

/-- An output drives its line. -/
theorem Engine.Wired.driven {e : Engine} {levels : Levels} (h : e.Wired levels)
    (output : e.direction = .output) : levels.direction = .output ∧ levels.pin = some true := by
  refine ⟨h.direction.trans output, ?_⟩
  cases took : levels.pin with
  | none => cases output.symm.trans (h.undriven took).1
  | some level => rw [h.pin level took, output]; rfl

section

variable {d r : Nat} {kind : Step.Kind} {kinds : Step.Kind → Prop} {s t : Scene d r}

open Journal (safe_cons)

namespace Scene

theorem Wired.driven (h : s.Wired) (sending : s.engine.sending = true) :
    s.journal.levels.direction = .output ∧ s.journal.levels.pin = some true := by
  simp only [Engine.sending, Bool.and_eq_true, beq_iff_eq] at sending
  exact Engine.Wired.driven h sending.2

/-- The pin of a stopped link whose break is released may let go of the line. -/
theorem Wired.safe_pin (h : s.Wired) (stopped : s.engine.running = false)
    (released : s.journal.breakAsserted = false) (high driven : Bool) :
    (Event.pin high driven).SafeBehind s.journal := by
  cases high with
  | true => trivial
  | false => exact ⟨h.phase.trans (h.at_rest stopped).2.2.1, released⟩

theorem safe_publish (h : s.journal.Safe) (time : Micros) (frame : Option Frame) :
    (s.publish time frame).journal.Safe := by
  rcases frame with - | frame | frame
  · exact h
  · exact safe_cons.mpr ⟨trivial, h⟩
  · exact safe_cons.mpr ⟨trivial, h⟩

theorem safe_watch (h : s.journal.Safe) (time : Micros) (watchdog : Option Micros) :
    (s.watch time watchdog).journal.Safe := by
  cases watchdog <;> exact safe_cons.mpr ⟨trivial, h⟩

theorem safe_sync (h : s.journal.Safe) (time : Micros) : (s.sync time).journal.Safe := by
  rw [sync]
  split
  · exact h
  · exact safe_watch h _ _

theorem safe_start (h : s.journal.Safe) (first second : Micros) :
    (s.start first second).journal.Safe := by
  rw [start]
  split <;> exact safe_cons.mpr ⟨trivial, safe_cons.mpr ⟨trivial, h⟩⟩

theorem safe_halt (h : s.journal.Safe) (first second third : Micros) :
    (s.halt first second third).journal.Safe := by
  rw [halt]
  split
  · exact safe_sync (s := (s.order first (.allowReceive false)).withReceiver
      s.engine.receiver.reset) (safe_cons.mpr ⟨trivial, h⟩) _
  · exact safe_cons.mpr ⟨trivial, safe_cons.mpr ⟨trivial, safe_cons.mpr ⟨trivial, h⟩⟩⟩

/-- The sequence of the output goes on while the link drives its line. -/
theorem Wired.safe_resume (h : s.Wired) (safe : s.journal.Safe) {entries : Journal}
    {transmitter : Transmitter} (continues : s.engine.transmitter.Continues entries transmitter) :
    (entries ++ s.journal).Safe := by
  cases continues with
  | whole time phase hands =>
      obtain ⟨output, driven⟩ := h.driven (Engine.Wired.sending_of_data h phase)
      exact safe_cons.mpr ⟨trivial, safe.append_driven hands.quiet output driven⟩
  | part phase _ hands =>
      obtain ⟨output, driven⟩ := h.driven (Engine.Wired.sending_of_data h phase)
      exact safe.append_driven hands.quiet output driven

theorem Wired.safe_pace (h : s.Wired) (safe : s.journal.Safe) (sending : s.engine.sending = true)
    {now : Micros} {entries : Journal} {transmitter : Transmitter} {next : Option Micros}
    (phase : TransmitState)
    (advances : s.engine.transmitter.Advances now entries transmitter next) :
    (entries ++ ⟨now, .transmitAlarm phase⟩ :: s.journal).Safe := by
  obtain ⟨output, driven⟩ := h.driven sending
  have alarmed : Journal.Safe (⟨now, .transmitAlarm phase⟩ :: s.journal) :=
    safe_cons.mpr ⟨trivial, safe⟩
  have output' :
      (Journal.levels (⟨now, .transmitAlarm phase⟩ :: s.journal)).direction = .output := by
    rw [Journal.levels_transmitAlarm]; exact output
  have driven' : (Journal.levels (⟨now, .transmitAlarm phase⟩ :: s.journal)).pin = some true := by
    rw [Journal.levels_transmitAlarm]; exact driven
  cases advances with
  | rest | overrun => exact alarmed
  | lineBreak => exact safe_cons.mpr ⟨⟨output', driven'⟩, alarmed⟩
  | mark => exact safe_cons.mpr ⟨trivial, alarmed⟩
  | whole _ hands => exact alarmed.append_driven hands.quiet output' driven'
  | part _ _ _ hands =>
      exact safe_cons.mpr ⟨trivial, alarmed.append_driven hands.quiet output' driven'⟩

end Scene

/-- Whatever happens to a link is safe. -/
theorem Step.safe (step : Step kind s t) (wired : s.Wired) (h : s.journal.Safe) :
    t.journal.Safe := by
  cases step with
  | configure | takeDmx | takeRdm | flush | claim | release | requestStop => exact h
  | readClock | sample | paceIdle | queue => exact safe_cons.mpr ⟨trivial, h⟩
  | @hear _ signal time receiver frame =>
      exact Scene.safe_publish (s := (s.note time (.heard signal)).withReceiver receiver)
        (safe_cons.mpr ⟨trivial, h⟩) _ _
  | @timeOut _ time receiver frame =>
      have served := Scene.safe_publish
        (s := (s.note time .receiveAlarm).withReceiver receiver) (safe_cons.mpr ⟨trivial, h⟩)
      exact Scene.safe_watch (served time frame) _ _
  | sync time => exact Scene.safe_sync h time
  | resume continues => exact wired.safe_resume h continues
  | @pace _ _ _ _ next later sending advances =>
      have paced := wired.safe_pace h sending s.engine.transmitter.state advances
      exact safe_cons.mpr ⟨by cases next <;> trivial, paced⟩
  | refuse time high stopped released =>
      exact safe_cons.mpr ⟨wired.safe_pin stopped released high false, h⟩
  | turn driven time direction stopped released =>
      have driven := wired.safe_pin stopped released direction.pinLevel true
      exact safe_cons.mpr ⟨trivial, safe_cons.mpr ⟨driven, h⟩⟩
  | start first second => exact Scene.safe_start h first second
  | halt first second third => exact Scene.safe_halt h first second third
  | setBreak time asserted stopped output =>
      cases asserted with
      | true => exact safe_cons.mpr ⟨Engine.Wired.driven wired output, h⟩
      | false => exact safe_cons.mpr ⟨trivial, h⟩
  | write time byte stopped output => exact safe_cons.mpr ⟨Engine.Wired.driven wired output, h⟩

theorem Steps.safe (steps : Steps kinds s t) (wired : s.Wired) (h : s.journal.Safe) :
    t.journal.Safe := by
  induction steps with
  | refl => exact h
  | tail steps step ih =>
      obtain ⟨_, _, step⟩ := step
      exact step.safe (Steps.wired steps wired) ih

theorem Scene.pins_publish (time : Micros) (frame : Option Frame) :
    (s.publish time frame).journal.pins = s.journal.pins := by
  rcases frame with - | frame | frame <;> rfl

theorem Scene.pins_watch (time : Micros) (watchdog : Option Micros) :
    (s.watch time watchdog).journal.pins = s.journal.pins := by
  cases watchdog <;> rfl

theorem Scene.pins_sync (time : Micros) : (s.sync time).journal.pins = s.journal.pins := by
  rw [sync]
  split
  · rfl
  · exact pins_watch _ _

theorem Scene.pins_halt (first second third : Micros) :
    (s.halt first second third).journal.pins = s.journal.pins := by
  rw [halt]
  split
  · exact pins_sync (s := (s.order first (.allowReceive false)).withReceiver
      s.engine.receiver.reset) _
  · rfl

theorem Hands.pins_eq {bytes : List UInt8} {entries : Journal} (h : Hands bytes entries) :
    entries.pins = [] := by
  apply List.filterMap_eq_nil_iff.mpr
  intro entry mem
  rcases h.only entry mem with ⟨_, event⟩ | ⟨_, event⟩ <;> rw [event] <;> rfl

theorem Transmitter.Continues.pins_eq {entries : Journal} {transmitter transmitter' : Transmitter}
    (h : transmitter.Continues entries transmitter') : entries.pins = [] := by
  cases h with
  | whole _ _ hands => exact (Journal.pins_cons rfl).trans hands.pins_eq
  | part _ _ hands => exact hands.pins_eq

theorem Transmitter.Advances.pins_eq {entries : Journal} {transmitter transmitter' : Transmitter}
    {now : Micros} {next : Option Micros} (h : transmitter.Advances now entries transmitter' next) :
    entries.pins = [] := by
  cases h with
  | rest | lineBreak | mark | overrun => rfl
  | whole _ hands => exact hands.pins_eq
  | part _ _ _ hands => exact (Journal.pins_cons rfl).trans hands.pins_eq

/-- Only control moves the pin. -/
theorem Step.pins_eq (step : Step kind s t) (other : kind ≠ .control) :
    t.journal.pins = s.journal.pins := by
  cases step with
  | claim | release | refuse | turn | requestStop | start | halt => exact absurd rfl other
  | configure | takeDmx | takeRdm | flush | readClock | sample | paceIdle | queue | setBreak
  | write => rfl
  | hear => exact Scene.pins_publish _ _
  | timeOut => exact (Scene.pins_watch _ _).trans (Scene.pins_publish _ _)
  | sync => exact Scene.pins_sync _
  | resume continues =>
      exact (Journal.pins_append _ _).trans (congrArg (· ++ _) continues.pins_eq)
  | @pace _ _ _ _ next _ _ advances =>
      refine (Journal.pins_cons (by cases next <;> rfl)).trans ?_
      exact (Journal.pins_append _ _).trans (congrArg (· ++ _) advances.pins_eq)

theorem Steps.pins_eq (steps : Steps kinds s t) (others : ¬ kinds .control) :
    t.journal.pins = s.journal.pins := by
  induction steps with
  | refl => rfl
  | tail _ step ih =>
      obtain ⟨kind, within, step⟩ := step
      exact (step.pins_eq fun control => others (control ▸ within)).trans ih

namespace Scene

variable {bytes : List UInt8} {withBreak : Bool} {outcome : Outcome Unit}

theorem Stops.pins_eq (h : s.Stops t) : t.journal.pins = s.journal.pins := by
  cases h with
  | input => exact pins_halt _ _ _
  | output _ drains =>
      have drained := Steps.pins_eq drains (by simp)
      exact (pins_halt _ _ _).trans drained

theorem Quiets.pins_eq (h : s.Quiets t) : t.journal.pins = s.journal.pins := by
  cases h with
  | still => rfl
  | stops _ stops => exact stops.pins_eq

theorem pins_start (first second : Micros) :
    (s.start first second).journal.pins = s.journal.pins := by
  rw [start]
  split <;> rfl

/-- On the way to a direction, the pin takes its level or none. -/
theorem Switches.pins_done {target : Direction} {enable : Bool}
    (h : s.Switches target enable (.ok ()) t) :
    ∃ moved, t.journal.pins = moved ++ s.journal.pins ∧
      ∀ pin ∈ moved, pin = (target.pinLevel, true) := by
  cases h with
  | keeps => exact ⟨[], rfl, by simp⟩
  | starts => exact ⟨[], pins_start _ _, by simp⟩
  | stops _ _ _ stops => exact ⟨[], stops.pins_eq, by simp⟩
  | turns _ quiets turns =>
      obtain ⟨driven, time, first, second⟩ := turns
      refine ⟨[(target.pinLevel, true)], ?_, by simp⟩
      have turned := congrArg ((target.pinLevel, true) :: ·) quiets.pins_eq
      cases enable with
      | true => exact (pins_start _ _).trans turned
      | false => exact turned

/-- A line is not turned where the pin refuses its level. -/
theorem Switches.pins_failed {target : Direction} {enable : Bool} {refusal : Refusal}
    (h : s.Switches target enable (.error refusal) t) :
    refusal = .line .pin ∧ t.journal.pins = (target.pinLevel, false) :: s.journal.pins := by
  cases h with
  | refused _ quiets => exact ⟨rfl, congrArg (_ :: ·) quiets.pins_eq⟩

/-- A line that was taken is handed back by one write of the pin. -/
theorem Switches.handed_back (h : s.Switches .input true (.ok ()) t) (taken : s.Taken) :
    ∃ (after : Journal) (low : Micros),
      t.journal = after ++ ⟨low, .pin false true⟩ :: s.journal ∧
        after.written = [] ∧ after.pins = [] := by
  cases h with
  | keeps same | starts same | stops same => cases same.trans taken.output
  | turns _ quiets turns =>
      cases quiets with
      | stops running => cases running.symm.trans taken.stopped
      | still =>
          obtain ⟨driven, time, first, second⟩ := turns
          exact ⟨[⟨second, .order (.allowReceive true)⟩, ⟨first, .order .clearReceive⟩,
            ⟨time, .turned .input⟩], driven, rfl, rfl, rfl⟩

/-- Bytes were sent by hand on the way, and the line was handed back. -/
def HandsBack (bytes : List UInt8) (s t : Scene d r) : Prop :=
  ∃ new : Journal, t.journal = new ++ s.journal ∧ new.HandsBack bytes

theorem HandsBack.written (h : s.HandsBack bytes t) :
    t.journal.written = s.journal.written ++ bytes := by
  obtain ⟨new, journal, back⟩ := h
  rw [journal, Journal.written_append, back.written_eq]

/-- A frame that was sent in full is handed over to the interface, and the line is
handed back once the interface is empty. -/
theorem Transmits.handsBack (h : s.Transmits bytes withBreak outcome t) (done : outcome = .ok ())
    (steady : s.Steady) (present : s.engine.attached = true) (quiet : s.engine.sending = false) :
    s.HandsBack bytes t := by
  cases h with
  | refused | kept => contradiction
  | @returned m u _ finished takes frames returns =>
      cases finished with
      | false => contradiction
      | true =>
          have taken := Transmits.taken takes
          have steady' := takes.steady' steady present
          have steps := frames.steps taken
          have sent : u.journal.written = s.journal.written ++ bytes := by
            have released := steady'.settled.released taken.stopped
            rw [(frames.carries taken released steady'.wired).written rfl,
              (takes.silent quiet).written]
          obtain ⟨driven, pins, levels⟩ := takes.pins_done
          have pins' : u.journal.pins = driven ++ s.journal.pins :=
            (steps.pins_eq (by simp [IsManual])).trans pins
          obtain ⟨after, low, handed, silent, left⟩ :=
            returns.handed_back (taken.of_standing (steps.standing_eq (by simp [IsManual])))
          obtain ⟨v, looked, status, rfl, empty, older⟩ := frames.drained taken
          obtain ⟨before, whole⟩ := (takes.steps steady present).journal_suffix.trans older
          have sent' : Journal.written before = bytes := Journal.written_of_append whole sent
          have high : ∀ pin ∈ Journal.pins before, pin.1 = true := by
            rw [Journal.pins_of_append whole pins']
            exact fun pin given => congrArg Prod.fst (levels pin given)
          refine ⟨_, ?_, .intro looked low sent' high empty silent left⟩
          rw [handed, Scene.note, ← whole]
          simp

/-- An attempt to send a frame that succeeds writes it and hands the line back. -/
theorem Delivers.handsBack {frame : Except MessageError (List UInt8)} {spacing : Micros}
    (h : s.Delivers frame withBreak spacing outcome t) (done : outcome = .ok ()) (steady : s.Steady)
    (present : s.engine.attached = true) : ∃ bytes, frame = .ok bytes ∧ s.HandsBack bytes t := by
  cases h with
  | streams | malformed => contradiction
  | @sends bytes _ m _ quiet right spaces transmits =>
      have waits := spaces.waits
      obtain ⟨steady', present'⟩ := Delivers.waited waits steady present
      have quiet' := (sending_of_standing (Steps.standing_eq waits nofun)).trans quiet
      obtain ⟨new, journal, back⟩ := transmits.handsBack done steady' present' quiet'
      obtain ⟨waited, older⟩ := Steps.journal_suffix waits
      have silent : Journal.written waited = [] := by
        apply Journal.written_of_append older
        rw [List.append_nil]
        exact (waits.silent steady.wired quiet).written
      have still : Journal.pins waited = [] :=
        Journal.pins_of_append older (Steps.pins_eq waits (by simp))
      refine ⟨bytes, right, new ++ waited, ?_, back.append silent still⟩
      rw [journal, ← older, List.append_assoc]

end Scene

end

end Dmx512
