import Dmx512.Proofs.Node.Loopback
import Dmx512.Proofs.Reception.Capturing

/-!
# What a node captures between packets

A node whose receiver is idle captures discovery responses from the bytes that come without a
break, wherever they come from. The first preamble byte decides where a capture begins, and the
first delimiter behind it, or the eighth byte, where it ends.
-/

namespace Dmx512.Node

open Standard Discovery

variable {H : Type} [Hardware H] {d r : Nat} {s : Node H d r} {actions : List (Action H)}

/-- Exact captures. In a run that listens, let the receiver be idle at some point. Bytes without
error that are not preamble bytes change nothing and publish nothing. Let bytes without error
follow that begin with a preamble byte. As long as they are fewer than a capture takes, nothing
is published, and a break or a damaged byte that comes next drops them. Once they are as many,
the bytes of the capture are published as one discovery response with the last of them; they
are 18 to 24, that byte ends the receiver's latest RDM frame, and the receiver is idle again.
What the wire leaves of a response is published as it comes, as long as a byte of its preamble
is left, and decodes to the responder's identifier. -/
theorem Reachable.captures_responses (reachable : s.Reachable)
    (receiving : s.link.engine.receiving = true) (listens : ∀ action ∈ actions, action.Listens) :
    ∃ t story, s.Hears actions story t ∧
      ∀ before skips later m skipped, story = before ++ (skips ++ later) →
        s.link.engine.receiver.Follows before m → m.state = .idle →
        Brings skips skipped → preambleByte ∉ skipped →
        m.Follows skips m ∧ storyFrames skips = [] ∧
        ∀ part after bytes, later = part ++ after → Brings part bytes →
          (bytes.head? = some preambleByte → bytes.length < captureLength bytes →
            storyFrames part = [] ∧
            ∀ next others, after = next :: others →
              next.IsBreak ∨ next.cause = .signal .damaged →
              next.published = [] ∧ ∃ u, m.Follows (part ++ [next]) u ∧
                u.Follows others t.link.engine.receiver ∧
                (next.IsBreak → u.state = .lineBreak) ∧
                (next.cause = .signal .damaged → u.state = .idle)) ∧
          (bytes.head? = some preambleByte → captureLength bytes ≤ bytes.length →
            ∃ front last rest data u, part = front ++ last :: rest ∧
              data = bytes.take (captureLength bytes) ∧ Brings (front ++ [last]) data ∧
              last.byte?.isSome ∧ storyFrames front = [] ∧
              last.published = [.rdm { data }] ∧
              ({ data } : RdmFrame).kind = .discoveryResponse ∧ 18 ≤ data.length ∧
              data.length ≤ discoverySize ∧ m.Follows (front ++ [last]) u ∧
              u.Follows (rest ++ after) t.link.engine.receiver ∧ u.state = .idle ∧
              u.counters.rdmReceiveEnd = last.time) ∧
          ∀ uid lost, lost < preambleMax → bytes = (encode uid).drop lost →
            storyFrames part = [.rdm { data := bytes }] ∧ decode bytes = .ok uid := by
  obtain ⟨t, story, hears⟩ := reachable.sound.hears receiving listens
  refine ⟨t, story, hears, ?_⟩
  rintro before skips later m skipped rfl front idle skips' lacks
  have wf := reachable.sound.sound.receiver.follows front
  obtain ⟨_, inSkips, behind⟩ := (hears.scene.follows.rest front).split
  obtain ⟨rfl, silent⟩ := Receiver.ignores idle skips' lacks inSkips
  refine ⟨inSkips, silent, ?_⟩
  rintro part after bytes rfl brings
  obtain ⟨u, inPart, afterPart⟩ := behind.split
  refine ⟨fun first short => ?_, fun first enough => ?_, ?_⟩
  · obtain ⟨quiet, scans⟩ :=
      Receiver.Scans.gathers brings (.idle idle rfl) wf (.inr first) short inPart
    refine ⟨quiet, ?_⟩
    rintro next others rfl ends
    obtain ⟨v, atNext, inOthers⟩ := Receiver.Follows.split
      (show u.Follows ([next] ++ others) t.link.engine.receiver from afterPart)
    obtain ⟨dropped, states⟩ := scans.discards ends atNext
    exact ⟨dropped, v, inPart.append atNext, inOthers, states⟩
  · obtain ⟨front, last, rest, v, rfl, gathered, arrives, quiet, published, heard, inRest, idle',
      ended⟩ := Receiver.capture_published wf idle brings first enough inPart
    have length : (bytes.take (captureLength bytes)).length = captureLength bytes :=
      List.length_take_of_le enough
    have bounds := captureLength_range first
    have kind : ({ data := bytes.take (captureLength bytes) } : RdmFrame).kind =
        .discoveryResponse := if_pos (by rw [List.head?_take, if_neg (by omega), first])
    rw [← length] at bounds
    exact ⟨front, last, rest, _, v, rfl, rfl, gathered, arrives, quiet, published, kind, bounds.1,
      bounds.2, heard, inRest.append afterPart, idle', ended⟩
  · rintro uid lost few rfl
    exact ⟨Receiver.rest_published wf idle inPart few brings,
      decode_drop_encode uid (Nat.le_of_lt few)⟩

def lateResponse : List UInt8 := (encode responderUid).drop 3

/-- A byte of something else and a capture that a damaged byte cuts off, and then what is left
of a response, each served by an interrupt. -/
def capturingRun : List (Action Bench) :=
  [.disturb (Bench.receive [0x12, 0xFE, 0x07] 0x01), .perform (.interrupt .uart),
    .disturb (Bench.receive [0xAA] 0x09), .perform (.interrupt .uart),
    .disturb (Bench.receive lateResponse 0x01), .perform (.interrupt .uart)]

def heardCapture : List Occasion :=
  [⟨.signal (.byte 0xFE), 0, []⟩, ⟨.signal (.byte 0x07), 0, []⟩]

def heardLate : List Occasion := arriving lateResponse (.rdm { data := lateResponse })

theorem Reachable.captures_responses_late :
    ∃ s t : Node Bench 0 0, s.Reachable ∧
      s.Hears capturingRun (⟨.signal (.byte 0x12), 0, []⟩ :: (heardCapture ++
        ⟨.signal .damaged, 0, []⟩ :: heardLate)) t ∧
      storyFrames heardCapture = [] ∧
      (∃ front last rest, heardLate = front ++ last :: rest ∧ storyFrames front = [] ∧
        last.published = [.rdm { data := lateResponse }]) ∧
      storyFrames heardLate = [.rdm { data := lateResponse }] ∧
      decode lateResponse = .ok responderUid := by
  have carried : (powerUp {} : Node Bench 0 0).Ends benchStart fun s =>
      s.link.engine.receiving = true ∧ s.link.engine.receiver.state = .idle ∧
        s.Ends capturingRun fun t => t.link.line.journal.occasions =
          s.link.line.journal.occasions ++ ⟨.signal (.byte 0x12), 0, []⟩ :: (heardCapture ++
            ⟨.signal .damaged, 0, []⟩ :: heardLate) := by
    decide +kernel
  obtain ⟨s, started, receiving, idle, t, ran, told⟩ := carried
  have reachable : s.Reachable := ⟨{}, benchStart, started⟩
  have listens : ∀ action ∈ capturingRun, action.Listens := by
    simp [capturingRun, Action.Listens]
  obtain ⟨t', story, hears, captures⟩ :=
    Reachable.captures_responses reachable receiving listens
  obtain ⟨rfl, rfl⟩ := hears.unique ran told
  -- The capture is cut off, and leaves the receiver idle for the response behind it.
  obtain ⟨skipped, _, behind⟩ := captures [] [⟨.signal (.byte 0x12), 0, []⟩] _ _ [0x12] rfl
    (.nil _) idle (.byte rfl .nil) (by decide)
  obtain ⟨cutOff, _⟩ := behind heardCapture _ [0xFE, 0x07] rfl (.byte rfl (.byte rfl .nil))
  obtain ⟨silent, drops⟩ := cutOff rfl (by decide)
  obtain ⟨_, u, heard, _, _, idle'⟩ := drops _ _ rfl (.inr rfl)
  obtain ⟨_, _, behind'⟩ := captures _ [] heardLate u [] (by simp [heardCapture])
    (skipped.append heard) (idle' rfl) .nil (by decide)
  obtain ⟨_, whole, responses⟩ := behind' heardLate [] lateResponse (by simp)
    (brings_arriving _ _)
  obtain ⟨front, last, rest, data, _, parts, taken, _, _, quiet, shown, _⟩ :=
    whole (by decide) (by decide)
  obtain rfl : data = lateResponse := taken.trans (by decide)
  obtain ⟨published, decodes⟩ := responses responderUid 3 (by decide) rfl
  exact ⟨s, t', reachable, hears, silent, ⟨front, last, rest, parts, quiet, shown⟩, published,
    decodes⟩

end Dmx512.Node
