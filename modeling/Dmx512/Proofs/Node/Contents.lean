import Dmx512.Proofs.Node.Reception
import Dmx512.Proofs.Reception.Contents

/-!
# What a node receives does not depend on timing

Two receiving nodes that hear the same signals and serve no timeouts publish the same RDM frames
and the same DMX frames with all their slots, each at its own pace. Their receivers expect the
same after each signal, and count the same packets.
-/

namespace Dmx512.Node

variable {H : Type} [Hardware H] {d r : Nat} {s : Node H d r} {actions : List (Action H)}

/-- Two receiving nodes have the same contents, as they do at power-up, and listen. Where they
hear the same signals, at whatever times, and neither serves a timeout, they have published the
same after each signal, apart from timing and from DMX frames that ended early; and their
receivers expect the same and have counted the same packets. -/
theorem Reachable.contents_ignore_timing {H' : Type} [Hardware H'] {d' r' : Nat}
    {s' : Node H' d' r'} {actions' : List (Action H')} (reachable : s.Reachable)
    (reachable' : s'.Reachable) (receiving : s.link.engine.receiving = true)
    (receiving' : s'.link.engine.receiving = true)
    (same : s.link.engine.receiver.SameContents s'.link.engine.receiver)
    (listens : ∀ action ∈ actions, action.Listens)
    (listens' : ∀ action ∈ actions', action.Listens) :
    ∃ t story t' story', s.Hears actions story t ∧ s'.Hears actions' story' t' ∧
      (story.map Occasion.cause = story'.map Occasion.cause →
        (∀ o ∈ story, o.cause ≠ .timeout) → ∀ n, ∃ m m',
          s.link.engine.receiver.Follows (story.take n) m ∧
          s'.link.engine.receiver.Follows (story'.take n) m' ∧
          m.state = m'.state ∧ m.counters.dmxPackets = m'.counters.dmxPackets ∧
          m.counters.rdmPackets = m'.counters.rdmPackets ∧
          (storyFrames (story.take n)).filterMap Frame.untimed? =
            (storyFrames (story'.take n)).filterMap Frame.untimed?) := by
  obtain ⟨t, story, hears⟩ := reachable.sound.hears receiving listens
  obtain ⟨t', story', hears'⟩ := reachable'.sound.hears receiving' listens'
  refine ⟨t, story, t', story', hears, hears', ?_⟩
  intro causes signals n
  have follows := hears.scene.follows
  have follows' := hears'.scene.follows
  rw [← List.take_append_drop n story] at follows
  rw [← List.take_append_drop n story'] at follows'
  obtain ⟨m, front, _⟩ := follows.split
  obtain ⟨m', front', _⟩ := follows'.split
  have heard : (story.take n).map Occasion.cause = (story'.take n).map Occasion.cause := by
    rw [List.map_take, causes, List.map_take]
  have early : ∀ o ∈ story.take n, o.cause ≠ .timeout :=
    fun o ho => signals o (List.mem_of_mem_take ho)
  obtain ⟨contents, frames⟩ := same.follows reachable.sound.sound.receiver
    reachable'.sound.sound.receiver front front' heard early
  exact ⟨m, m', front, front', contents.state.symm, contents.dmxPackets.symm,
    contents.rdmPackets.symm, frames⟩

/-- What a node hears of two slots and, later, of the message: the break behind the slots ends
their frame, or does not. -/
def slotsAndMessage (time : Micros) (ended : List Frame) : List Occasion :=
  [⟨.signal .lineBreak, 0, []⟩, ⟨.signal (.byte 0x00), 0, []⟩, ⟨.signal (.byte 0x05), 0, []⟩,
    ⟨.signal .lineBreak, time, ended⟩, ⟨.signal (.byte 0xCC), time, []⟩,
    ⟨.signal (.byte 0x01), time, []⟩, ⟨.signal (.byte 0x03), time, []⟩,
    ⟨.signal (.byte 0x00), time, []⟩,
    ⟨.signal (.byte 0xD0), time, [.rdm { data := [0xCC, 0x01, 0x03, 0x00, 0xD0] }]⟩]

/-- A message that comes at once, and one that comes late enough to end the frame before it. -/
theorem Reachable.contents_ignore_timing_message :
    ∃ s t t' : Node Bench 0 0, s.Reachable ∧
      s.Hears (earlierRun ++ messageRun) (slotsAndMessage 0 []) t ∧
      s.Hears (earlierRun ++ .disturb (Bench.advance 1000) :: messageRun)
        (slotsAndMessage 1000 [.dmx { slots := [0x05], slotToSlot := 44 }]) t' ∧
      (storyFrames (slotsAndMessage 0 [])).filterMap Frame.untimed? =
        (storyFrames (slotsAndMessage 1000 [.dmx { slots := [0x05], slotToSlot := 44 }])).filterMap
          Frame.untimed? := by
  have carried : (powerUp {} : Node Bench 0 0).Ends benchStart fun s =>
      s.link.engine.receiving = true ∧
        (s.Ends (earlierRun ++ messageRun) fun t => t.link.line.journal.occasions =
          s.link.line.journal.occasions ++ slotsAndMessage 0 []) ∧
        s.Ends (earlierRun ++ .disturb (Bench.advance 1000) :: messageRun) fun t =>
          t.link.line.journal.occasions = s.link.line.journal.occasions ++
            slotsAndMessage 1000 [.dmx { slots := [0x05], slotToSlot := 44 }] := by
    decide +kernel
  obtain ⟨s, started, receiving, ⟨t, ran, told⟩, t', ran', told'⟩ := carried
  have reachable : s.Reachable := ⟨{}, benchStart, started⟩
  have listens : ∀ action ∈ earlierRun ++ messageRun, action.Listens := by
    simp [earlierRun, messageRun, Action.Listens]
  have listens' : ∀ action ∈ earlierRun ++ .disturb (Bench.advance 1000) :: messageRun,
      action.Listens := by
    simp [earlierRun, messageRun, Action.Listens]
  obtain ⟨_, _, _, _, hears, hears', same⟩ := Reachable.contents_ignore_timing reachable reachable
    receiving receiving (.refl _) listens listens'
  obtain ⟨rfl, rfl⟩ := hears.unique ran told
  obtain ⟨rfl, rfl⟩ := hears'.unique ran' told'
  obtain ⟨_, _, _, _, _, _, _, frames⟩ := same rfl (by decide) 9
  exact ⟨s, _, _, reachable, hears, hears', frames⟩

end Dmx512.Node
