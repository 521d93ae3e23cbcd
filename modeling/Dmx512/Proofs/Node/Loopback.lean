import Dmx512.Proofs.Link.Emission
import Dmx512.Proofs.Node.Driving
import Dmx512.Proofs.Node.Reception
import Dmx512.Proofs.Reception.Delivery
import Dmx512.Proofs.Reception.Scanning

/-!
# What one node sends another receives

Both sides of a wire meet in the bytes on it. What an operation writes, and what a
sequence writes behind its break, is told by the journal of the sender; told to a node
that receives, whatever it did before, those bytes publish what was sent.
-/

namespace Dmx512.Node

open Standard

variable {H : Type} [Hardware H] {d r : Nat} {s t : Node H d r}

/-- After `s`, up to `t`, a transmit sequence writes bytes behind its break, and nothing
is queued between `s` and that break. -/
inductive Emits (s : Node H d r) (bytes : List UInt8) (t : Node H d r) : Prop where
  | intro {actions : List (Action H)} {entries earlier : Journal} {first : Entry}
      (ran : s.run actions = .ok t) (told : entries ++ first :: earlier <:+ t.link.line.journal)
      (within : entries.InFrame first earlier) (written : entries.written = bytes)
      (unqueued : earlier.queued = s.link.line.journal.queued)

theorem Reachable.emits (h : s.Reachable) : s.link.scene.Emits := by
  obtain ⟨hardware, steps⟩ := h.steps
  have fresh : (powerUp hardware : Node H d r).Sound := .powerUp hardware
  exact steps.emits fresh.sound fresh.wired (.nil _ _)

/-- An operation that queues a frame needs a station. -/
theorem isSome_station {operation : Operation} {frame : List UInt8}
    (queues : operation.frames = [frame]) (done : perform operation s = .ok (.done, t)) :
    s.station.isSome = true := by
  rw [Option.isSome_iff_ne_none]
  intro absent
  cases operation with
  | sendData | sendSlots =>
      rw [perform, onStation, absent] at done
      cases done
  | _ => cases queues

/-- What a sequence writes of a frame that was queued is a front part of it. -/
theorem Reachable.emits_prefix (h : s.Reachable) {operation : Operation} {frame bytes : List UInt8}
    {m : Node H d r} (queues : operation.frames = [frame])
    (done : perform operation s = .ok (.done, m)) (emits : m.Emits bytes t) : bytes <+: frame := by
  have performed := (wp_perform h.sound operation).elim done
  obtain ⟨ran, told, within, rfl, unqueued⟩ := emits
  have sound := performed.sound h.sound
  have begun : m.link.scene.Emits :=
    performed.moves.steps.emits h.sound.sound h.sound.wired h.emits
  have written : t.link.scene.Emits :=
    (sound.run_moves ran).steps.emits sound.sound sound.wired begun
  have front := written.past _ _ _ told within
  rwa [Journal.latestFrame, unqueued, performed.queued (isSome_station queues done), queues,
    List.getLastD_concat] at front

/-- What one node sends another receives. Of the bytes that a message or a response was
sent with, told behind a break, a node that receives publishes that message; of an
answer to a discovery request, told without a break where its receiver is idle, it
publishes a response that decodes to the identifier. A frame of two bytes or more that
was queued, and that a sequence has written in full, is published from those bytes
behind a break: a full frame by itself, and a shorter one, told in the spacing of the
line, once the next break comes no earlier than the guard time behind the slot that is
missing, whatever timeouts are served before it. -/
theorem Reachable.receives_as_sent {H' : Type} [Hardware H'] {d' r' : Nat} {s' : Node H' d' r'}
    {actions' : List (Action H')} (reachable : s.Reachable) (reachable' : s'.Reachable)
    (receiving : s'.link.engine.receiving = true)
    (listens : ∀ action ∈ actions', action.Listens) :
    ∃ t' story, s'.Hears actions' story t' ∧
      (∀ message spacing number t,
        perform (.sendMessage message spacing) s = .ok (.transaction number, t) →
        ∃ bytes, t.link.line.journal.written = s.link.line.journal.written ++ bytes ∧
          PublishesMessage story bytes (message.set transactionOffset number)) ∧
      (∀ message t, perform (.sendResponse message) s = .ok (.done, t) →
        ∃ bytes, t.link.line.journal.written = s.link.line.journal.written ++ bytes ∧
          PublishesMessage story bytes message) ∧
      (∀ uid t, perform (.sendDiscoveryResponse uid) s = .ok (.done, t) →
        ∃ bytes, t.link.line.journal.written = s.link.line.journal.written ++ bytes ∧
          ∀ before response rest m, story = before ++ (response ++ rest) →
            s'.link.engine.receiver.Follows before m → m.state = .idle → Brings response bytes →
            ∃ frame : RdmFrame, storyFrames response = [.rdm frame] ∧
              frame.kind = .discoveryResponse ∧ Discovery.decode frame.data = .ok uid) ∧
      (∀ operation frame m bytes t, operation.frames = [frame] →
        perform operation s = .ok (.done, m) → m.Emits bytes t → bytes.length = frame.length →
        2 ≤ frame.length → frame.head? = some dmxStartCode →
        ∀ before first packet rest, story = before ++ first :: (packet ++ rest) →
          first.IsBreak → Brings packet bytes → TimeoutsEarly [] packet →
          (frame.length = dmxCapacity →
            ∃ published, storyFrames packet = [.dmx published] ∧ published.data = frame) ∧
          (frame.length < dmxCapacity → Paced slotTime (storyArrivals packet) →
            ∀ gap closing after last, rest = gap ++ closing :: after →
              (∀ o ∈ gap, o.cause = .timeout) → closing.IsBreak →
              (storyArrivals packet).getLast?.map Prod.snd = some last →
              slotTime + timeoutGuard ≤ elapsed closing.time last →
              elapsed closing.time last < 0x80000000 →
              ∃ published, storyFrames (packet ++ gap ++ [closing]) = [.dmx published] ∧
                published.data = frame)) := by
  obtain ⟨t', story, hears⟩ := reachable'.sound.hears receiving listens
  have sound := reachable.sound
  have wf := reachable'.sound.sound.receiver
  refine ⟨t', story, hears, ?_, ?_, ?_, ?_⟩
  · intro message spacing number t done
    obtain ⟨⟨_, valid⟩, back⟩ := sound.sendMessage_handsBack done
    exact ⟨_, back.written,
      Receiver.message_published (Message.validate_set valid number) wf hears.scene.follows⟩
  · intro message t done
    obtain ⟨⟨_, valid⟩, back⟩ := sound.sendResponse_handsBack done
    exact ⟨_, back.written, Receiver.message_published valid wf hears.scene.follows⟩
  · intro uid t done
    have back := sound.sendDiscoveryResponse_handsBack done
    refine ⟨_, back.written, ?_⟩
    rintro before response rest m rfl front idle brings
    obtain ⟨_, behind, _⟩ := (hears.scene.follows.rest front).split
    exact Receiver.response_published (wf.follows front) idle behind brings
  · intro operation frame m bytes t queues done emits whole two code
    obtain rfl : bytes = frame := (reachable.emits_prefix queues done emits).eq_of_length whole
    rintro before first packet rest rfl isBreak brings early
    refine ⟨fun full => Receiver.fullFrame_published wf hears.scene.follows isBreak brings code
      full early, ?_⟩
    rintro short paced gap closing after last rfl served closes ends due soon
    exact Receiver.shortFrame_published wf hears.scene.follows isBreak brings code two short early
      paced served closes ends due soon

def responderUid : Uid := #v[0x12, 0x34, 0x56, 0x78, 0x9A, 0xBC]

def frameRun : List (Action Bench) :=
  [.perform (.setDirection .output true), .perform (.interrupt .transmitTimer),
    .perform (.interrupt .transmitTimer), .perform (.interrupt .transmitTimer)]

/-- A response without a break, a packet behind a break and a frame between two, each
served by interrupts. -/
def lineRun : List (Action Bench) :=
  [.disturb (Bench.receive (Discovery.encode responderUid) 0x01), .perform (.interrupt .uart),
    .disturb Bench.receiveBreak, .perform (.interrupt .uart),
    .disturb (Bench.receive (Message.packet shortMessage) 0x01), .perform (.interrupt .uart),
    .disturb Bench.receiveBreak, .perform (.interrupt .uart),
    .disturb (Bench.receive [0] 0x01), .perform (.interrupt .uart),
    .disturb (Bench.receive [7] 0x01 ∘ Bench.advance 44), .perform (.interrupt .uart),
    .disturb (Bench.receiveBreak ∘ Bench.advance 60), .perform (.interrupt .uart)]

/-- Bytes that arrive at once, the last of which publishes a frame. -/
def arriving (bytes : List UInt8) (frame : Frame) : List Occasion :=
  bytes.dropLast.map (fun byte => ⟨.signal (.byte byte), 0, []⟩) ++
    bytes.getLast?.toList.map fun byte => ⟨.signal (.byte byte), 0, [frame]⟩

theorem brings_map (bytes : List UInt8) (time : Micros) (published : List Frame) :
    Brings (bytes.map fun byte => ⟨.signal (.byte byte), time, published⟩) bytes := by
  induction bytes with
  | nil => exact .nil
  | cons byte rest ih => exact .byte rfl ih

theorem brings_arriving (bytes : List UInt8) (frame : Frame) :
    Brings (arriving bytes frame) bytes := by
  have whole : bytes.dropLast ++ bytes.getLast?.toList = bytes := by
    cases bytes with
    | nil => rfl
    | cons byte rest =>
        rw [List.getLast?_eq_some_getLast (List.cons_ne_nil _ _)]
        exact List.dropLast_concat_getLast _
  have brings :=
    (brings_map bytes.dropLast 0 []).append (brings_map bytes.getLast?.toList 0 [frame])
  rwa [whole] at brings

def heardResponse : List Occasion :=
  arriving (Discovery.encode responderUid) (.rdm { data := Discovery.encode responderUid })

def heardPacket : List Occasion :=
  arriving (Message.packet shortMessage) (.rdm { data := Message.packet shortMessage })

def heardFrame : List Occasion :=
  [⟨.signal (.byte 0), 0, []⟩, ⟨.signal (.byte 7), 44, []⟩]

def heardBreak : Occasion :=
  ⟨.signal .lineBreak, 104, [.dmx { slots := [7], slotToSlot := 44 }]⟩

def heardStory : List Occasion :=
  heardResponse ++ ⟨.signal .lineBreak, 0, []⟩ :: (heardPacket ++
    ⟨.signal .lineBreak, 0, []⟩ :: (heardFrame ++ [heardBreak]))

theorem brings_heardFrame : Brings heardFrame [0, 7] := .byte rfl (.byte rfl .nil)

theorem early_heardFrame : TimeoutsEarly [] heardFrame :=
  .of_signals (by simp [heardFrame])

theorem paced_heardFrame : Paced slotTime (storyArrivals heardFrame) :=
  List.isChain_pair.mpr rfl

/-- A bench that listens is idle, and hears the story. -/
theorem bench_hears : (powerUp {} : Node Bench 0 0).Ends benchStart fun s =>
    s.link.engine.receiving = true ∧ s.link.engine.receiver.state = .idle ∧
      s.Ends lineRun fun t => t.link.line.journal.occasions =
        s.link.line.journal.occasions ++ heardStory := by
  decide +kernel

/-- A bench behind a turned line sends what it is asked to, and its sequencer then sends
the frame that is queued. -/
theorem bench_sends : (powerUp {} : Node Bench 0 0).Ends turnedAround fun s =>
    (∃ outcome, perform (.sendMessage shortMessage 0) s = .ok outcome ∧
      outcome.1 = .transaction 0 ∧ outcome.2.link.line.journal.written =
        s.link.line.journal.written ++ Message.packet shortMessage) ∧
    (∃ outcome, perform (.sendResponse shortMessage) s = .ok outcome ∧ outcome.1 = .done) ∧
    (∃ outcome, perform (.sendDiscoveryResponse responderUid) s = .ok outcome ∧
      outcome.1 = .done ∧ outcome.2.link.line.journal.written =
        s.link.line.journal.written ++ Discovery.encode responderUid) ∧
    ∃ outcome, perform (.sendData [0, 7]) s = .ok outcome ∧ outcome.1 = .done ∧
      outcome.2.Ends frameRun fun t =>
        t.link.line.journal = t.link.line.journal.take 12 ++
          ⟨51500, .order (.setBreak true)⟩ :: t.link.line.journal.drop 13 ∧
        (Journal.alarm? .transmit (t.link.line.journal.drop 13)).isSome = true ∧
        (∀ entry ∈ t.link.line.journal.take 12, ¬ entry.EndsFrame) ∧
        Journal.written (t.link.line.journal.take 12) = [0, 7] ∧
        Journal.queued (t.link.line.journal.drop 13) = outcome.2.link.line.journal.queued := by
  decide +kernel

theorem Reachable.receives_as_sent_bench :
    ∃ (s s' t' m t : Node Bench 0 0), s.Reachable ∧ s'.Reachable ∧
      s'.Hears lineRun heardStory t' ∧
      (∃ sent, perform (.sendMessage shortMessage 0) s = .ok (.transaction 0, sent)) ∧
      (∃ sent, perform (.sendResponse shortMessage) s = .ok (.done, sent)) ∧
      (∃ sent, perform (.sendDiscoveryResponse responderUid) s = .ok (.done, sent)) ∧
      perform (.sendData [0, 7]) s = .ok (.done, m) ∧ m.Emits [0, 7] t ∧
      (∃ frame : RdmFrame, storyFrames heardResponse = [.rdm frame] ∧
        Discovery.decode frame.data = .ok responderUid) ∧
      (∃ frame : RdmFrame, storyFrames heardPacket = [.rdm frame] ∧
        frame.message? = some shortMessage) ∧
      ∃ frame, storyFrames (heardFrame ++ [heardBreak]) = [.dmx frame] ∧
        frame.data = [0, 7] := by
  obtain ⟨s', started', receiving, idle, t', ran, told⟩ := bench_hears
  obtain ⟨s, started, ⟨⟨_, u⟩, message, rfl, wrote⟩, ⟨⟨_, v⟩, answer, rfl⟩,
    ⟨⟨_, w⟩, response, rfl, wrote'⟩, ⟨_, m⟩, queued, rfl, t, went, split, armed, goesOn, written,
    unqueued⟩ := bench_sends
  have reachable : s.Reachable := ⟨{}, turnedAround, started⟩
  have reachable' : s'.Reachable := ⟨{}, benchStart, started'⟩
  have listens : ∀ action ∈ lineRun, action.Listens := by simp [lineRun, Action.Listens]
  have within : Journal.InFrame (t.link.line.journal.take 12) ⟨51500, .order (.setBreak true)⟩
      (t.link.line.journal.drop 13) := ⟨rfl, armed, goesOn⟩
  have emits : m.Emits [0, 7] t := .intro went ⟨[], split.symm⟩ within written unqueued
  obtain ⟨_, _, hears, messages, _, responses, frames⟩ :=
    Reachable.receives_as_sent reachable reachable' receiving listens
  obtain ⟨rfl, rfl⟩ := hears.unique ran told
  obtain ⟨_, bytes, packets⟩ := messages shortMessage 0 0 u message
  obtain ⟨_, bytes', answers⟩ := responses responderUid w response
  rw [wrote, List.append_cancel_left_eq] at bytes
  rw [wrote', List.append_cancel_left_eq] at bytes'
  subst bytes bytes'
  obtain ⟨frame, published, _, held⟩ := packets heardResponse ⟨.signal .lineBreak, 0, []⟩
    heardPacket _ rfl rfl (brings_arriving _ _)
  obtain ⟨frame', published', _, decodes⟩ := answers [] heardResponse _ _ rfl (.nil _) idle
    (brings_arriving _ _)
  obtain ⟨_, shorter⟩ := frames (.sendData [0, 7]) [0, 7] m [0, 7] t rfl queued emits rfl
    (by decide) rfl (heardResponse ++ ⟨.signal .lineBreak, 0, []⟩ :: heardPacket)
    ⟨.signal .lineBreak, 0, []⟩ heardFrame [heardBreak] (by simp [heardStory]) rfl
    brings_heardFrame early_heardFrame
  obtain ⟨frame'', published'', data⟩ := shorter (by decide) paced_heardFrame []
    heardBreak [] 44 rfl (List.forall_mem_nil _) rfl rfl (by decide) (by decide)
  exact ⟨s, s', _, m, t, reachable, reachable', hears, ⟨u, message⟩, ⟨v, answer⟩, ⟨w, response⟩,
    queued, emits, ⟨frame', published', decodes⟩, ⟨frame, published, held⟩, frame'', published'',
    data⟩

end Dmx512.Node
