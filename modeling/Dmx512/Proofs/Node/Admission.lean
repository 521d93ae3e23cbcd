import Dmx512.Proofs.Node.Loopback
import Dmx512.Proofs.Node.Session
import Dmx512.Proofs.Node.Storage

/-!
# Which RDM frames a node hands out

A message that a node hands out passes `Message.verify` unless it is too short for a header:
the receiver checks its start codes, its length and its checksum, but no least length. What
passes is published behind a break. A packet with another start code than those of dimmer
data and RDM is dropped, but what follows is scanned for discovery responses, and every
capture is published.
-/

namespace Dmx512.Node

open Standard

variable {H : Type} [Hardware H] {d r : Nat} {s t : Node H d r} {actions : List (Action H)}

/-- A frame that is taken or looked at was there to be read. -/
theorem mem_unread_of_rdm {operation : Operation} {frame : RdmFrame}
    (reads : operation = .takeRdm ∨ operation = .peekRdm)
    (performed : perform operation s = .ok (.rdm (some frame), t)) :
    frame ∈ s.link.rdmStore.unread := by
  rcases reads with rfl | rfl
  · have reads : Operation.takeRdm.Reads := trivial
    have took : Attached.Reads [] [.take (some frame)] s.link t.link :=
      (wp_reading reads).elim performed
    cases took.rdmStore with
    | cons used _ => exact used.mem_unread (.inl rfl)
  · have reads : Operation.peekRdm.Reads := trivial
    have looked : Attached.Reads [] [.look (some frame)] s.link t.link :=
      (wp_reading reads).elim performed
    cases looked.rdmStore with
    | cons used _ => exact used.mem_unread (.inr rfl)

/-- What a receiver and `Message.verify` accept. A message that a reader takes or looks at is
as long as it declares, and has both codes and its checksum; so it passes its check unless it
is shorter than a header. And in a run that listens, let a break be followed by bytes without
error that pass the check, with timeouts served in between: behind the break they are
published as one RDM frame, and nothing else, and with the break no other RDM frame is. -/
theorem Reachable.admits_verified (reachable : s.Reachable) :
    (∀ operation frame t, operation = .takeRdm ∨ operation = .peekRdm →
      perform operation s = .ok (.rdm (some frame), t) → frame.kind = .message →
      ∃ message, Message.Framed message ∧ frame.data = Message.packet message ∧
        Message.verify frame.data =
          if message.length < messageMin then .error .tooShort else .ok ()) ∧
    ∀ actions : List (Action H), s.link.engine.receiving = true →
      (∀ action ∈ actions, action.Listens) →
      ∃ t story, s.Hears actions story t ∧
        ∀ before first packet rest bytes, story = before ++ first :: (packet ++ rest) →
          first.IsBreak → Brings packet bytes → Message.verify bytes = .ok () →
          storyFrames packet = [.rdm { data := bytes }] ∧
          (storyFrames (first :: packet)).filterMap Frame.rdm? = [{ data := bytes }] := by
  constructor
  · intro operation frame t reads performed kind
    exact (reachable.recounts.unread frame (mem_unread_of_rdm reads performed)).verify kind
  · intro actions receiving listens
    obtain ⟨t, story, hears⟩ := reachable.sound.hears receiving listens
    refine ⟨t, story, hears, ?_⟩
    rintro before first packet rest bytes rfl isBreak brings valid
    have wf := reachable.sound.sound.receiver
    have follows := hears.scene.follows
    have published := Receiver.verified_published wf follows isBreak brings valid
    refine ⟨published, ?_⟩
    rw [wf.rdm?_of_packet isBreak follows, published]
    rfl

/-- A break and bytes behind it, each served by an interrupt. -/
def packetRun (bytes : List UInt8) : List (Action Bench) :=
  [.disturb Bench.receiveBreak, .perform (.interrupt .uart),
    .disturb (Bench.receive bytes 0x01), .perform (.interrupt .uart)]

theorem listens_packetRun (bytes : List UInt8) : ∀ action ∈ packetRun bytes, action.Listens := by
  simp [packetRun, Action.Listens]

/-- The shortest message with a header is published, and taken as it came. -/
theorem Reachable.admits_verified_message :
    ∃ s t u : Node Bench 0 0, s.Reachable ∧
      s.Hears (packetRun (Message.packet shortMessage))
        (⟨.signal .lineBreak, 0, []⟩ :: heardPacket) t ∧
      storyFrames heardPacket = [.rdm { data := Message.packet shortMessage }] ∧
      perform .takeRdm t = .ok (.rdm (some { data := Message.packet shortMessage }), u) ∧
      ∃ message, Message.Framed message ∧
        Message.packet shortMessage = Message.packet message ∧
        Message.verify (Message.packet shortMessage) =
          if message.length < messageMin then .error .tooShort else .ok () := by
  have carried : (powerUp {} : Node Bench 0 0).Ends benchStart fun s =>
      s.link.engine.receiving = true ∧
      s.Ends (packetRun (Message.packet shortMessage)) fun t =>
        t.link.line.journal.occasions = s.link.line.journal.occasions ++
          ⟨.signal .lineBreak, 0, []⟩ :: heardPacket ∧
        ∃ outcome, perform .takeRdm t = .ok outcome ∧
          outcome.1 = .rdm (some { data := Message.packet shortMessage }) := by
    decide +kernel
  obtain ⟨s, started, receiving, t, ran, told, ⟨_, u⟩, took, rfl⟩ := carried
  have reachable : s.Reachable := ⟨{}, benchStart, started⟩
  have reachable' : t.Reachable :=
    ⟨{}, benchStart ++ packetRun (Message.packet shortMessage), (run_append started).trans ran⟩
  obtain ⟨message, framed, data, checked⟩ :=
    (Reachable.admits_verified reachable').1 .takeRdm _ u (.inl rfl) took (by decide)
  obtain ⟨_, publishes⟩ := Reachable.admits_verified reachable
  obtain ⟨_, _, hears, published⟩ := publishes _ receiving (listens_packetRun _)
  obtain ⟨rfl, rfl⟩ := hears.unique ran told
  have shown := (published [] ⟨.signal .lineBreak, 0, []⟩ heardPacket [] _ (by simp) rfl
    (brings_arriving _ _) (by decide)).1
  exact ⟨s, _, u, reachable, hears, shown, took, message, framed, data, checked⟩

/-- A message of three bytes is taken, although it does not pass its check. -/
theorem short_message_taken :
    ∃ (s t : Node Bench 0 0) (frame : RdmFrame), s.Reachable ∧
      perform .takeRdm s = .ok (.rdm (some frame), t) ∧ frame.kind = .message ∧
      frame.data = [0xCC, 0x01, 0x03, 0x00, 0xD0] ∧
      Message.verify frame.data = .error .tooShort := by
  let frame : RdmFrame := { data := [0xCC, 0x01, 0x03, 0x00, 0xD0] }
  have carried : (powerUp {} : Node Bench 0 0).Ends (benchStart ++ messageRun) fun s =>
      ∃ outcome, perform .takeRdm s = .ok outcome ∧ outcome.1 = .rdm (some frame) := by
    decide +kernel
  obtain ⟨s, ran, ⟨_, t⟩, took, rfl⟩ := carried
  exact ⟨s, t, frame, ⟨{}, benchStart ++ messageRun, ran⟩, took, rfl, rfl, rfl⟩

/-- A dropped packet. In a run that listens, let a break be followed by another start code
than those of dimmer data and RDM and by bytes without error, with timeouts served in between.
The discovery responses that an idle receiver captures from the bytes behind the start code
are published, and nothing else. Each of them is a part of these bytes that begins with a
preamble byte, and 18 to 24 bytes long; without such a byte nothing is published. -/
theorem Reachable.publishes_captures (reachable : s.Reachable)
    (receiving : s.link.engine.receiving = true) (listens : ∀ action ∈ actions, action.Listens) :
    ∃ t story, s.Hears actions story t ∧
      ∀ before first packet rest code payload, story = before ++ first :: (packet ++ rest) →
        first.IsBreak → Brings packet (code :: payload) → code ≠ dmxStartCode →
        code ≠ rdmStartCode →
        storyFrames packet = (Discovery.captures payload).map (fun data => .rdm { data }) ∧
        (∀ data ∈ Discovery.captures payload,
          ({ data } : RdmFrame).kind = .discoveryResponse ∧ data <:+: payload ∧
          18 ≤ data.length ∧ data.length ≤ discoverySize) ∧
        (preambleByte ∉ payload → storyFrames packet = []) := by
  obtain ⟨t, story, hears⟩ := reachable.sound.hears receiving listens
  refine ⟨t, story, hears, ?_⟩
  rintro before first packet rest code payload rfl isBreak brings dmx rdm
  have captured := Receiver.captures_published reachable.sound.sound.receiver hears.scene.follows
    isBreak brings dmx rdm
  refine ⟨captured, ?_, fun lacks => ?_⟩
  · intro data mem
    obtain ⟨head, part, bounds⟩ := Discovery.captures_bounds mem
    exact ⟨if_pos head, part, bounds⟩
  · rw [captured, Discovery.captures_eq_nil lacks, List.map_nil]

def droppedPacket : List Occasion :=
  [0x17, 0x01, 0x02, 0x03].map fun byte => ⟨.signal (.byte byte), 0, []⟩

theorem Reachable.publishes_captures_none :
    ∃ s t : Node Bench 0 0, s.Reachable ∧
      s.Hears (packetRun [0x17, 0x01, 0x02, 0x03])
        (⟨.signal .lineBreak, 0, []⟩ :: droppedPacket) t ∧
      storyFrames droppedPacket = [] := by
  have carried : (powerUp {} : Node Bench 0 0).Ends benchStart fun s =>
      s.link.engine.receiving = true ∧ s.Ends (packetRun [0x17, 0x01, 0x02, 0x03]) fun t =>
        t.link.line.journal.occasions = s.link.line.journal.occasions ++
          ⟨.signal .lineBreak, 0, []⟩ :: droppedPacket := by
    decide +kernel
  obtain ⟨s, started, receiving, t, ran, told⟩ := carried
  have reachable : s.Reachable := ⟨{}, benchStart, started⟩
  obtain ⟨_, _, hears, publishes⟩ :=
    Reachable.publishes_captures reachable receiving (listens_packetRun _)
  obtain ⟨rfl, rfl⟩ := hears.unique ran told
  obtain ⟨_, _, nothing⟩ := publishes [] ⟨.signal .lineBreak, 0, []⟩ droppedPacket [] 0x17
    [0x01, 0x02, 0x03] (by simp) rfl (brings_map _ _ _) (by decide) (by decide)
  exact ⟨s, _, reachable, hears, nothing (by decide)⟩

/-- The bytes behind the start code of a dropped packet, which spell a discovery response. -/
def capturedBytes : List UInt8 := [0xFE, 0xAA] ++ List.replicate 16 0x07

/-- Behind a start code that is neither that of dimmer data nor that of RDM, an RDM frame is
published before the next break. -/
theorem dropped_packet_published :
    ∃ s t : Node Bench 0 0, s.Reachable ∧ s.link.engine.receiving = true ∧
      s.Hears (packetRun (0x17 :: capturedBytes)) (⟨.signal .lineBreak, 0, []⟩ ::
        arriving (0x17 :: capturedBytes) (.rdm { data := capturedBytes })) t ∧
      storyFrames (arriving (0x17 :: capturedBytes) (.rdm { data := capturedBytes })) ≠ [] ∧
      t.link.rdmStore.unread = [{ data := capturedBytes }] := by
  have carried : (powerUp {} : Node Bench 0 0).Ends benchStart fun s =>
      s.link.engine.receiving = true ∧ s.Ends (packetRun (0x17 :: capturedBytes)) fun t =>
        t.link.line.journal.occasions = s.link.line.journal.occasions ++
          ⟨.signal .lineBreak, 0, []⟩ ::
            arriving (0x17 :: capturedBytes) (.rdm { data := capturedBytes }) ∧
        t.link.rdmStore.unread = [{ data := capturedBytes }] := by
    decide +kernel
  obtain ⟨s, started, receiving, t, ran, told, stored⟩ := carried
  have reachable : s.Reachable := ⟨{}, benchStart, started⟩
  obtain ⟨_, _, hears⟩ := reachable.sound.hears receiving (listens_packetRun _)
  obtain ⟨rfl, rfl⟩ := hears.unique ran told
  exact ⟨s, _, reachable, receiving, hears, by decide, stored⟩

end Dmx512.Node
