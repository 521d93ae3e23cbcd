import Dmx512.Bench
import Dmx512.Proofs.Link.Driving
import Dmx512.Proofs.Node.Runs

/-!
# Line safety

In every run, and wherever interrupts are served while the foreground waits, bytes
and breaks are put on the line only by a link that drives it, and the pin lets go of
it only where nothing is under way. What an operation sends by hand has left the
interface before the line is handed back.
-/

namespace Dmx512.Node

open Act Standard

variable {H : Type} [Hardware H] {d r : Nat} {s t : Node H d r}

omit [Hardware H] in
/-- What serves the station at a node serves the node. -/
theorem wp_onStation_ready (h : s.Sound) {act : Act (Attached H d r) Answer}
    {post : Answer → Link H d r → Prop} (absent : post .noStation s.link)
    (serves : ∀ a : Attached H d r, a.Ready → a.link = s.link →
      WP Fault.IsStall act (fun answer t => post answer t.link) a) :
    WP Fault.IsStall (onStation act) (fun answer t => post answer t.link) s := by
  cases present : s.station with
  | none => exact (wp_onStation_none present).mpr absent
  | some station =>
      exact (wp_onStation_some present).mpr (serves _ (h.ready present) rfl)

omit [Hardware H] in
/-- A message that was sent passed its check, and the line was handed back. -/
theorem handsBack_of_dispatches {a b : Attached H d r} {message bytes : List UInt8}
    {withBreak : Bool} {spacing : Micros} {counts : UInt8} (ready : a.Ready)
    (dispatches : a.Dispatches ((Message.validate message).map fun _ => bytes) withBreak spacing
      counts (.ok ()) b) :
    (∃ sum, Message.validate message = .ok sum) ∧ a.link.scene.HandsBack bytes b.link.scene := by
  obtain ⟨sent, right, back⟩ :=
    dispatches.leads.scene.handsBack rfl ready.toSteady ready.attached
  cases valid : Message.validate message with
  | error defect => simp [valid, Except.map] at right
  | ok sum =>
      rw [valid] at right
      cases right
      exact ⟨⟨sum, rfl⟩, back⟩

/-- A message that was sent is well-formed, and its number was stamped into it. -/
theorem Sound.sendMessage_handsBack (h : s.Sound) {message : List UInt8} {spacing : Micros}
    {number : UInt8}
    (done : perform (.sendMessage message spacing) s = .ok (.transaction number, t)) :
    (∃ sum, Message.validate message = .ok sum) ∧ s.link.scene.HandsBack
      (Message.packet (message.set transactionOffset number)) t.link.scene := by
  let post (answer : Answer) (link : Link H d r) : Prop := ∀ number, answer = .transaction number →
    (∃ sum, Message.validate message = .ok sum) ∧ s.link.scene.HandsBack
      (Message.packet (message.set transactionOffset number)) link.scene
  have sends : WP Fault.IsStall (perform (.sendMessage message spacing))
      (fun answer t => post answer t.link) s := by
    refine wp_onStation_ready h nofun fun a ready same => ?_
    apply WP.bind (Attached.wp_sendMessage (fun _ _ _ => Link.mayWait_isStall) ready spacing)
    rintro _ b ⟨outcome, rfl, dispatches⟩
    cases outcome with
    | error refusal => exact nofun
    | ok done =>
        rintro number ⟨⟩
        exact same ▸ handsBack_of_dispatches ready dispatches
  exact sends.elim done number rfl

/-- A response that was sent is well-formed. -/
theorem Sound.sendResponse_handsBack (h : s.Sound) {message : List UInt8}
    (done : perform (.sendResponse message) s = .ok (.done, t)) :
    (∃ sum, Message.validate message = .ok sum) ∧
      s.link.scene.HandsBack (Message.packet message) t.link.scene := by
  let post (answer : Answer) (link : Link H d r) : Prop := answer = .done →
    (∃ sum, Message.validate message = .ok sum) ∧
      s.link.scene.HandsBack (Message.packet message) link.scene
  have sends : WP Fault.IsStall (perform (.sendResponse message))
      (fun answer t => post answer t.link) s := by
    refine wp_onStation_ready h nofun fun a ready same => ?_
    apply WP.bind (Attached.wp_sendResponse (fun _ _ _ => Link.mayWait_isStall) ready)
    rintro outcome b dispatches
    cases outcome with
    | error refusal => exact nofun
    | ok done => exact fun _ => same ▸ handsBack_of_dispatches ready dispatches
  exact sends.elim done rfl

theorem Sound.sendDiscoveryResponse_handsBack (h : s.Sound) {uid : Uid}
    (done : perform (.sendDiscoveryResponse uid) s = .ok (.done, t)) :
    s.link.scene.HandsBack (Discovery.encode uid) t.link.scene := by
  let post (answer : Answer) (link : Link H d r) : Prop := answer = .done →
    s.link.scene.HandsBack (Discovery.encode uid) link.scene
  have sends : WP Fault.IsStall (perform (.sendDiscoveryResponse uid))
      (fun answer t => post answer t.link) s := by
    refine wp_onStation_ready h nofun fun a ready same => ?_
    apply WP.bind (Attached.wp_sendDiscoveryResponse (fun _ => Link.mayWait_isStall) ready uid)
    rintro outcome b dispatches
    cases outcome with
    | error refusal => exact nofun
    | ok done =>
        intro _
        obtain ⟨_, ⟨⟩, back⟩ := dispatches.leads.scene.handsBack rfl ready.toSteady ready.attached
        exact same ▸ back
  exact sends.elim done rfl

/-- A half-duplex line is safe. In every run each byte and each break is put on the line
while the link is an output and its pin was driven high last, and the pin is driven
low only while no sequence is under way and no break is on the line; where the journal
is read for the direction and the phase of the sequence, it tells those of the engine.
When a message, a response or an answer to a discovery request has been sent, its pin
went low once, behind a look at the interface that found it empty, and all the bytes
had been written before that look. -/
theorem Reachable.drives_line_safely (reachable : s.Reachable) :
    s.link.line.journal.Safe ∧
    s.link.line.journal.direction = s.link.engine.direction ∧
    s.link.line.journal.phase = s.link.engine.transmitter.state ∧
    (∀ message spacing number t,
      perform (.sendMessage message spacing) s = .ok (.transaction number, t) →
      s.link.scene.HandsBack (Message.packet (message.set transactionOffset number))
        t.link.scene) ∧
    (∀ message t, perform (.sendResponse message) s = .ok (.done, t) →
      s.link.scene.HandsBack (Message.packet message) t.link.scene) ∧
    (∀ uid t, perform (.sendDiscoveryResponse uid) s = .ok (.done, t) →
      s.link.scene.HandsBack (Discovery.encode uid) t.link.scene) := by
  have sound := reachable.sound
  refine ⟨?_, sound.wired.direction, sound.wired.phase,
    fun message spacing number t done => (sound.sendMessage_handsBack done).2,
    fun message t done => (sound.sendResponse_handsBack done).2,
    fun uid t done => sound.sendDiscoveryResponse_handsBack done⟩
  obtain ⟨hardware, actions, ran⟩ := reachable
  have fresh : (powerUp hardware : Node H d r).Sound := .powerUp hardware
  exact (fresh.run_moves ran).steps.safe fresh.wired Journal.safe_nil

/-- A station on a line whose clock moves by 100 us a reading, behind a frame that its
sequence has begun. -/
def turnedAround : List (Action Bench) :=
  [.disturb (Bench.setStep 100), .perform (.attach { direction := .output }),
    .perform (.interrupt .transmitTimer), .perform (.setDirection .input true)]

def shortMessage : List UInt8 := [0xCC, 0x01, 24] ++ List.replicate 21 0

theorem Reachable.drives_line_safely_message :
    ∃ s t : Node Bench 0 0, s.Reachable ∧ s.link.line.journal.Safe ∧
      s.link.line.journal.pins = [(false, true), (true, true)] ∧
      perform (.sendMessage shortMessage 0) s = .ok (.transaction 0, t) ∧
      s.link.scene.HandsBack (Message.packet shortMessage) t.link.scene := by
  have carried : (powerUp {} : Node Bench 0 0).Ends turnedAround fun s =>
      s.link.line.journal.pins = [(false, true), (true, true)] ∧
        ∃ outcome, perform (.sendMessage shortMessage 0) s = .ok outcome ∧
          outcome.1 = .transaction 0 := by
    decide +kernel
  obtain ⟨s, started, pins, ⟨_, t⟩, sent, rfl⟩ := carried
  have reachable : s.Reachable := ⟨{}, turnedAround, started⟩
  obtain ⟨safe, _, _, sends, _, _⟩ := Reachable.drives_line_safely reachable
  exact ⟨s, t, reachable, safe, pins, sent, sends shortMessage 0 0 t sent⟩

end Dmx512.Node
