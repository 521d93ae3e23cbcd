import Dmx512.Proofs.Link.Attempts
import Dmx512.Proofs.Node.Driving

/-!
# Sending by hand

Three operations send a frame by hand: a message with the next number, a message as it is,
and the answer to a discovery request. `Dispatch` says what an operation is to send. Where a
sequencer streams or the message does not pass its check, it is refused and nothing happens
at all. Otherwise the number is counted and an attempt is made, which ends where the clock
keeps pace.
-/

namespace Dmx512

open Standard Act

/-- What an operation is to send by hand. -/
structure Dispatch where
  /-- The frame, unless its message is malformed. -/
  frame : Except MessageError (List UInt8)
  /-- Whether it goes out behind a break. -/
  withBreak : Bool
  /-- The spacing to the latest RDM frame. -/
  spacing : Micros
  /-- By how much the number of the next transaction goes on. -/
  counts : UInt8
  /-- What is answered when the frame has been sent. -/
  sent : Answer

namespace Dispatch

def answer (dispatch : Dispatch) : Outcome Unit → Answer
  | .ok () => dispatch.sent
  | .error refusal => .refused refusal

end Dispatch

/-- What an operation is to send by hand at a station whose next transaction has a number. -/
def Operation.dispatch? (number : UInt8) : Operation → Option Dispatch
  | .sendMessage message spacing => some {
      frame := (Message.validate message).map fun _ =>
        Message.packet (message.set transactionOffset number)
      withBreak := true
      spacing
      counts := 1
      sent := .transaction number }
  | .sendResponse message => some {
      frame := (Message.validate message).map fun _ => Message.packet message
      withBreak := true
      spacing := responderSpacing
      counts := 0
      sent := .done }
  | .sendDiscoveryResponse uid => some {
      frame := .ok (Discovery.encode uid)
      withBreak := false
      spacing := responderSpacing
      counts := 0
      sent := .done }
  | _ => none

namespace Node

open Link (MayWait Ticking)

variable {H : Type} [Hardware H] {d r : Nat} {allowed : Fault → Prop} {s : Node H d r}
variable {station : Station} {operation : Operation} {dispatch : Dispatch}

/-- An operation that is to send a frame dispatches it at the station. It waits only for a
frame that is sent. -/
theorem Sound.wp_dispatch (h : s.Sound) (present : s.station = some station)
    (asks : operation.dispatch? station.transaction = some dispatch)
    (may : s.link.cell.value.sending = false → ∀ bytes, dispatch.frame = .ok bytes →
      MayWait allowed H d r) :
    WP allowed (perform operation) (fun answer t => ∃ outcome b,
      answer = dispatch.answer outcome ∧ t = { link := b.link, station := some b.station } ∧
        Attached.Dispatches dispatch.frame dispatch.withBreak dispatch.spacing dispatch.counts
          { station, link := s.link } outcome b) s := by
  have ready := h.ready present
  cases operation with
  | sendMessage message spacing =>
      cases asks
      refine (wp_onStation_some present).mpr (WP.bind (Attached.wp_sendMessage
        (fun quiet sum valid => may quiet _ (by rw [valid]; rfl)) ready spacing) ?_)
      rintro _ b ⟨outcome, rfl, dispatches⟩
      cases outcome <;> exact ⟨_, b, rfl, rfl, dispatches⟩
  | sendResponse message =>
      cases asks
      refine (wp_onStation_some present).mpr (WP.bind (Attached.wp_sendResponse
        (fun quiet sum valid => may quiet _ (by rw [valid]; rfl)) ready) ?_)
      rintro outcome b dispatches
      cases outcome <;> exact ⟨_, b, rfl, rfl, dispatches⟩
  | sendDiscoveryResponse uid =>
      cases asks
      refine (wp_onStation_some present).mpr (WP.bind (Attached.wp_sendDiscoveryResponse
        (fun quiet => may quiet _ rfl) ready uid) ?_)
      rintro outcome b dispatches
      cases outcome <;> exact ⟨_, b, rfl, rfl, dispatches⟩
  | _ => simp [Operation.dispatch?] at asks

/-- Sending by hand. A node whose sequencer streams refuses it, and one that is given a
malformed message reports what is wrong; nothing else happens then. Otherwise the number of
the next transaction goes on by what the operation counts, whatever the outcome. The line
stays silent where the pin refused to take it; or else a front part of the frame was put
there, all of it where the frame was sent, behind a break of 176 us and a mark of 68 us at
least or without a break. Unless the pin refused a level, the frame was sent or a wait took
too long, and the node receives. The operation stops only by waiting for ever, and ends
where the clock keeps pace. -/
theorem Reachable.sends_by_hand (reachable : s.Reachable) (present : s.station = some station)
    (asks : operation.dispatch? station.transaction = some dispatch) :
    (s.link.engine.sending = true →
      perform operation s = .ok (.refused (.line .streaming), s)) ∧
    (∀ defect, s.link.engine.sending = false → dispatch.frame = .error defect →
      perform operation s = .ok (.refused (.message defect), s)) ∧
    (∀ bytes, s.link.engine.sending = false → dispatch.frame = .ok bytes →
      (Ticking H d r → ∃ answer t, perform operation s = .ok (answer, t)) ∧
      (∀ fault, perform operation s = .error fault → fault.IsStall) ∧
      ∀ answer t, perform operation s = .ok (answer, t) →
        t.station.map (·.transaction) = some (station.transaction + dispatch.counts) ∧
        ∃ outcome, answer = dispatch.answer outcome ∧
          s.link.scene.Attempts bytes dispatch.withBreak outcome t.link.scene) := by
  have sound := reachable.sound
  have ready := sound.ready present
  have same : ({ link := s.link, station := some station } : Node H d r) = s := by
    rw [← present]
  refine ⟨fun sending => ?_, fun defect quiet wrong => ?_, fun bytes quiet right =>
    ⟨fun ticking => ?_, fun fault stopped => ?_, fun answer t ended => ?_⟩⟩
  · have busy : ¬ s.link.engine.sending = false := fun quiet => by simp [sending] at quiet
    obtain ⟨_, _, ended, outcome, b, rfl, rfl, dispatches⟩ :=
      (sound.wp_dispatch present asks fun quiet => absurd quiet busy).exists_ok
    cases dispatches with
    | streams => rw [ended, same]; rfl
    | malformed quiet | sends quiet => exact absurd quiet busy
  · obtain ⟨_, _, ended, outcome, b, rfl, rfl, dispatches⟩ :=
      (sound.wp_dispatch present asks fun _ bytes right => by simp [wrong] at right).exists_ok
    cases dispatches with
    | streams sending => exact absurd (sending.symm.trans quiet) (by simp)
    | malformed _ wrong' => cases wrong.symm.trans wrong'; rw [ended, same]; rfl
    | sends _ right => cases wrong.symm.trans right
  · obtain ⟨answer, t, ended, _⟩ :=
      (sound.wp_dispatch present asks fun _ _ _ => .inr ticking).exists_ok
    exact ⟨answer, t, ended⟩
  · exact (sound.wp_dispatch present asks fun _ _ _ => Link.mayWait_isStall).allows stopped
  · obtain ⟨outcome, b, rfl, rfl, dispatches⟩ :=
      (sound.wp_dispatch present asks fun _ _ _ => Link.mayWait_isStall).elim ended
    cases dispatches with
    | streams sending => exact absurd (sending.symm.trans quiet) (by simp)
    | malformed _ wrong => cases right.symm.trans wrong
    | sends _ right' delivers counted =>
        cases right.symm.trans right'
        exact ⟨congrArg some counted, outcome, rfl,
          delivers.scene.attempts ready.toSteady ready.attached quiet⟩

/-- Hardware without interrupts, whose clock moves by 100 us at every reading and whose
interface takes every byte at once. -/
structure Ticker where
  clock : Micros := 0

instance : Hardware Ticker where
  clock := Ticker.clock
  tick h := { clock := h.clock + 100 }
  sample h := ({ txReady := true, txIdle := true }, h)
  take h := (0, h)
  obey _ h := h
  drive _ h := (true, h)
  polled _ := []
  raised _ h := (false, h)
  patience := 0x100000000

theorem ticking_ticker : Ticking Ticker d r := by
  have step (h : Ticker) : 0 < (elapsed (h.clock + 100) h.clock).toNat ∧
      (elapsed (h.clock + 100) h.clock).toNat < 2147483648 := by
    have moved : elapsed (h.clock + 100) h.clock = 100 := by
      rw [elapsed]
      grind
    rw [moved]
    decide
  exact .of_ticks (by decide) (fun _ => rfl) step fun _ => rfl

theorem Reachable.sends_by_hand_ticker :
    ∃ s t : Node Ticker 0 0, s.Reachable ∧
      s.station = some { config := {} } ∧ s.link.engine.sending = false ∧
      perform (.sendMessage shortMessage 176) s = .ok (.transaction 0, t) ∧
      t.station.map (·.transaction) = some 1 ∧
      s.link.scene.Attempts (Message.packet shortMessage) true (.ok ()) t.link.scene := by
  have carried : (powerUp {} : Node Ticker 0 0).Ends [.perform (.attach {})] fun s =>
      s.station = some { config := {} } ∧ s.link.engine.sending = false ∧
      ∃ ended, perform (.sendMessage shortMessage 176) s = .ok ended ∧
        ended.1 = .transaction 0 := by
    decide +kernel
  obtain ⟨s, attached, present, quiet, ⟨_, t⟩, ended, rfl⟩ := carried
  have reachable : s.Reachable := ⟨{}, _, attached⟩
  have asks : (Operation.sendMessage shortMessage 176).dispatch? 0 = some _ := rfl
  obtain ⟨_, _, sends⟩ := Reachable.sends_by_hand reachable present asks
  obtain ⟨_, _, attempts⟩ := sends (Message.packet shortMessage) quiet rfl
  obtain ⟨counted, outcome, answer, attempt⟩ := attempts _ t ended
  -- A refusal would have been answered.
  cases outcome with
  | ok => exact ⟨s, t, reachable, present, quiet, ended, counted, attempt⟩
  | error refusal => cases answer

end Node

end Dmx512
