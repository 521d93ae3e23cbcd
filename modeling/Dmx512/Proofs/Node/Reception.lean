import Dmx512.Proofs.Bench.Queue
import Dmx512.Proofs.Node.Listening
import Dmx512.Proofs.Node.Storage
import Dmx512.Proofs.Reception.Acceptance
import Dmx512.Proofs.Reception.Completion
import Dmx512.Proofs.Reception.Resynchronization

/-!
# What a receiving node publishes

Whatever a node did before, from a break on its receiver publishes exactly what the
signals behind the break call for: an RDM packet if it is accepted, a DMX frame with
its last slot or when it has ended, and of earlier frames nothing at all. A station finds
the newest of these frames in the stores, oldest first.
-/

namespace Dmx512.Node

open Standard

variable {H : Type} [Hardware H] {d r : Nat} {s t : Node H d r} {actions : List (Action H)}

/-- What is found in the stores behind a story: the newest frames, of those that were unread
before and those published in it. A station takes the oldest of them, and leaves the others. -/
theorem Hears.takes {story : List Occasion} {station : Station} (h : s.Hears actions story t)
    (present : t.station = some station) :
    (s.link.dmxStore.lag + ((storyFrames story).filterMap Frame.dmx?).length <
        Frame.Store.counts → ∃ queue u, t.link.dmxStore.unread = queue ∧
      queue = (s.link.dmxStore.unread ++ (storyFrames story).filterMap Frame.dmx?).rtake (2 ^ d) ∧
      perform .takeDmx t = .ok (.dmx queue.head?, u) ∧ u.link.dmxStore.unread = queue.tail) ∧
    (s.link.rdmStore.lag + ((storyFrames story).filterMap Frame.rdm?).length <
        Frame.Store.counts → ∃ queue u, t.link.rdmStore.unread = queue ∧
      queue = (s.link.rdmStore.unread ++ (storyFrames story).filterMap Frame.rdm?).rtake (2 ^ r) ∧
      perform .takeRdm t = .ok (.rdm queue.head?, u) ∧ u.link.rdmStore.unread = queue.tail) := by
  obtain ⟨⟨u, took, left⟩, v, took', left'⟩ := take_unread present
  exact ⟨fun few => ⟨_, u, rfl, h.scene.dmx_unread few, took, left⟩,
    fun few => ⟨_, v, rfl, h.scene.rdm_unread few, took', left'⟩⟩

/-- Exactly the accepted RDM packets are published. In a run that listens, let a break
be followed by bytes without error, with timeouts served in between, and let the
first byte be the code of RDM. Until the packet ends nothing is published; at the
byte that ends it, it is published exactly if it is accepted, and the receiver is
idle. -/
theorem Reachable.publishes_accepted_rdm (reachable : s.Reachable)
    (receiving : s.link.engine.receiving = true) (listens : ∀ action ∈ actions, action.Listens) :
    ∃ t story, s.Hears actions story t ∧
      ∀ before first packet rest, story = before ++ first :: (packet ++ rest) → first.IsBreak →
        (∀ o ∈ packet, o.IsClean) → (storyBytes packet).head? = some rdmStartCode →
        (RdmUnfinished (storyBytes packet) → ∀ o ∈ packet, o.published = []) ∧
        ∀ front last declared, packet = front ++ [last] → last.byte?.isSome →
          (storyBytes packet)[lengthOffset]? = some declared →
          (storyBytes packet).length = rdmExtent declared →
          (∀ o ∈ front, o.published = []) ∧
          last.published = (if 3 ≤ declared.toNat ∧ RdmAccepted (storyBytes packet) then
            [.rdm { data := storyBytes packet }] else []) ∧
          ∃ m, s.link.engine.receiver.Follows (before ++ first :: packet) m ∧
            m.Follows rest t.link.engine.receiver ∧ m.state = .idle ∧
            (last.published ≠ [] → m.counters.rdmReceiveEnd = last.time) := by
  obtain ⟨t, story, hears⟩ := reachable.sound.hears receiving listens
  refine ⟨t, story, hears, ?_⟩
  rintro before first packet rest rfl isBreak clean code
  exact Receiver.rdm_published reachable.sound.sound.receiver hears.scene.follows isBreak clean code

/-- A station attached to a bench listens. -/
def benchStart : List (Action Bench) := [.perform (.attach {})]

/-- A break and a short message, each served by an interrupt. -/
def messageRun : List (Action Bench) :=
  [.disturb Bench.receiveBreak, .perform (.interrupt .uart),
    .disturb (Bench.receive [0xCC, 0x01, 0x03, 0x00, 0xD0] 0x01), .perform (.interrupt .uart)]

def messagePacket : List Occasion :=
  [⟨.signal (.byte 0xCC), 0, []⟩, ⟨.signal (.byte 0x01), 0, []⟩, ⟨.signal (.byte 0x03), 0, []⟩,
    ⟨.signal (.byte 0x00), 0, []⟩] ++
    [⟨.signal (.byte 0xD0), 0, [.rdm { data := [0xCC, 0x01, 0x03, 0x00, 0xD0] }]⟩]

theorem Reachable.publishes_accepted_rdm_message :
    ∃ s t : Node Bench 0 0, s.Reachable ∧
      s.Hears messageRun (⟨.signal .lineBreak, 0, []⟩ :: messagePacket) t ∧
      Takes Bench.receiveQueue s messageRun (.signal .lineBreak ::
        [0xCC, 0x01, 0x03, 0x00, 0xD0].map fun byte => .signal (.byte byte)) t ∧
      RdmAccepted [0xCC, 0x01, 0x03, 0x00, 0xD0] ∧
      t.link.engine.receiver.state = .idle ∧
      ∃ u, perform .takeRdm t = .ok (.rdm (some { data := [0xCC, 0x01, 0x03, 0x00, 0xD0] }), u) ∧
        u.link.rdmStore.unread = [] := by
  have carried : (powerUp {} : Node Bench 0 0).Ends benchStart fun s =>
      s.link.engine.receiving = true ∧ s.link.rdmStore.lag = 0 ∧ s.station.isSome = true ∧
        s.Ends messageRun fun t => t.link.line.journal.occasions =
          s.link.line.journal.occasions ++ ⟨.signal .lineBreak, 0, []⟩ :: messagePacket := by
    decide +kernel
  obtain ⟨s, started, receiving, empty, attached, t, ran, told⟩ := carried
  obtain ⟨station, present⟩ := Option.isSome_iff_exists.mp attached
  have reachable : s.Reachable := ⟨{}, benchStart, started⟩
  have listens : ∀ action ∈ messageRun, action.Listens := by simp [messageRun, Action.Listens]
  obtain ⟨t', story, hears, publishes⟩ :=
    Reachable.publishes_accepted_rdm reachable receiving listens
  obtain ⟨rfl, rfl⟩ := hears.unique ran told
  obtain ⟨_, ends⟩ := publishes [] ⟨.signal .lineBreak, 0, []⟩ messagePacket [] (by simp) rfl
    (by simp [messagePacket, Occasion.IsClean]) (by decide)
  obtain ⟨_, _, m, _, follows, idle, _⟩ := ends _ _ 0x03 rfl rfl rfl rfl
  cases follows
  have present' := (hears.station reachable.sound listens).trans present
  obtain ⟨queue, u, _, found, took, left⟩ := (hears.takes present').2 (by rw [empty]; decide)
  rw [Frame.Store.unread_eq_nil.mpr empty] at found
  obtain rfl : queue = [{ data := [0xCC, 0x01, 0x03, 0x00, 0xD0] }] := found
  exact ⟨s, t', reachable, hears, hears.taken Bench.receiveQueue, by decide, idle, u, took, left⟩

/-- Exactly the complete DMX frames are published. In a run that listens, let a break
be followed by the code of dimmer data and slots without error, and let no timeout
come late in between. While slots are missing nothing is published; the last slot
publishes the frame and leaves the receiver idle; and before it, a timeout or a break
publishes the slots so far exactly if the frame has ended, and otherwise nothing. -/
theorem Reachable.publishes_complete_dmx (reachable : s.Reachable)
    (receiving : s.link.engine.receiving = true) (listens : ∀ action ∈ actions, action.Listens) :
    ∃ t story, s.Hears actions story t ∧
      ∀ before first frame rest, story = before ++ first :: (frame ++ rest) →
        first.IsBreak → (∀ o ∈ frame, o.IsClean) →
        (storyBytes frame).head? = some dmxStartCode → TimeoutsEarly [] frame →
        (storyBytes frame).length ≤ maxSlots →
        (∀ o ∈ frame, o.published = []) ∧
        ∀ next after, rest = next :: after →
          (∀ byte, next.cause = .signal (.byte byte) → (storyBytes frame).length = maxSlots →
            (∃ published, next.published = [.dmx published] ∧
              published.data = storyBytes frame ++ [byte]) ∧
            ∃ m, s.link.engine.receiver.Follows (before ++ first :: (frame ++ [next])) m ∧
              m.Follows after t.link.engine.receiver ∧ m.state = .idle) ∧
          (next.cause = .timeout ∨ next.IsBreak →
            ∃ m u, s.link.engine.receiver.Follows (before ++ first :: frame) m ∧
              m.Follows [next] u ∧ u.Follows after t.link.engine.receiver ∧
              (if slotsOverdue (storyArrivals frame) next.time then
                ∃ published, next.published = [.dmx published] ∧
                  published.data = storyBytes frame ∧
                  slotSpacing? (storyArrivals frame) = some published.slotToSlot
              else next.published = [] ∧ (next.cause = .timeout → u = m)) ∧
              (next.IsBreak → u.state = .lineBreak)) := by
  obtain ⟨t, story, hears⟩ := reachable.sound.hears receiving listens
  refine ⟨t, story, hears, ?_⟩
  rintro before first frame rest rfl isBreak clean code early missing
  have wf := reachable.sound.sound.receiver
  have follows := hears.scene.follows
  obtain ⟨silent, m, heard, later, fills⟩ :=
    Receiver.slots_kept wf follows isBreak clean code early missing
  refine ⟨silent, ?_⟩
  rintro next after rfl
  constructor
  · intro byte arrives full
    exact Receiver.lastSlot_published wf follows isBreak clean code early full arrives
  · intro closing
    obtain ⟨u, atNext, inRest⟩ := Receiver.Follows.split
      (show m.Follows ([next] ++ after) t.link.engine.receiver from later)
    refine ⟨m, u, heard, atNext, inRest, ?_⟩
    rw [← map_fst_storyArrivals]
    exact fills.closes atNext closing

/-- A break, the code of dimmer data and two slots, and a timeout served later. -/
def slotsRun : List (Action Bench) :=
  [.disturb Bench.receiveBreak, .perform (.interrupt .uart),
    .disturb (Bench.receive [0x00] 0x01), .perform (.interrupt .uart),
    .disturb (Bench.receive [0x07] 0x01 ∘ Bench.advance 44), .perform (.interrupt .uart),
    .disturb (Bench.receive [0x09] 0x01 ∘ Bench.advance 50), .perform (.interrupt .uart),
    .disturb (Bench.advance 62), .perform (.interrupt .receiveTimeout)]

def slotsFrame (time : Micros) : List Occasion :=
  [⟨.signal (.byte 0x00), time, []⟩, ⟨.signal (.byte 0x07), time + 44, []⟩,
    ⟨.signal (.byte 0x09), time + 94, []⟩]

def slotsTimeout (time interval : Micros) : Occasion :=
  ⟨.timeout, time + 156,
    [.dmx { slots := [0x07, 0x09], slotToSlot := 50, breakToBreak := interval }]⟩

theorem Reachable.publishes_complete_dmx_slots :
    ∃ s t : Node Bench 0 0, s.Reachable ∧
      s.Hears slotsRun (⟨.signal .lineBreak, 0, []⟩ :: (slotsFrame 0 ++ [slotsTimeout 0 0])) t ∧
      slotsOverdue (storyArrivals (slotsFrame 0)) 156 = true ∧
      ∃ (published : DmxFrame) (u : Node Bench 0 0),
        (slotsTimeout 0 0).published = [.dmx published] ∧
        published.data = [0x00, 0x07, 0x09] ∧ published.slotToSlot = 50 ∧
        perform .takeDmx t = .ok (.dmx (some published), u) ∧
        u.link.dmxStore.unread = [] := by
  have carried : (powerUp {} : Node Bench 0 0).Ends benchStart fun s =>
      s.link.engine.receiving = true ∧ s.link.dmxStore.lag = 0 ∧ s.station.isSome = true ∧
        s.Ends slotsRun fun t => t.link.line.journal.occasions = s.link.line.journal.occasions ++
          ⟨.signal .lineBreak, 0, []⟩ :: (slotsFrame 0 ++ [slotsTimeout 0 0]) := by
    decide +kernel
  obtain ⟨s, started, receiving, empty, attached, t, ran, told⟩ := carried
  obtain ⟨station, present⟩ := Option.isSome_iff_exists.mp attached
  have reachable : s.Reachable := ⟨{}, benchStart, started⟩
  have listens : ∀ action ∈ slotsRun, action.Listens := by simp [slotsRun, Action.Listens]
  obtain ⟨t', story, hears, publishes⟩ :=
    Reachable.publishes_complete_dmx reachable receiving listens
  obtain ⟨rfl, rfl⟩ := hears.unique ran told
  have early : TimeoutsEarly [] (slotsFrame 0) := by
    intro before o after split timeout
    have mem : o ∈ slotsFrame 0 := by simp [split]
    simp only [slotsFrame, List.mem_cons, List.not_mem_nil, or_false] at mem
    rcases mem with rfl | rfl | rfl <;> cases timeout
  obtain ⟨_, closes⟩ := publishes [] ⟨.signal .lineBreak, 0, []⟩ (slotsFrame 0)
    [slotsTimeout 0 0] rfl rfl (by simp [slotsFrame, Occasion.IsClean]) (by decide) early
    (by decide)
  obtain ⟨m, u, _, _, _, ended, _⟩ := (closes (slotsTimeout 0 0) [] rfl).2 (.inl rfl)
  have overdue : slotsOverdue (storyArrivals (slotsFrame 0)) (slotsTimeout 0 0).time = true := by
    decide
  rw [if_pos overdue] at ended
  obtain ⟨published, shown, data, spacing⟩ := ended
  have present' := (hears.station reachable.sound listens).trans present
  obtain ⟨queue, u, _, found, took, left⟩ := (hears.takes present').1 (by rw [empty]; decide)
  rw [Frame.Store.unread_eq_nil.mpr empty] at found
  obtain rfl : queue = [published] := by
    cases shown
    exact found
  refine ⟨s, t', reachable, hears, overdue, published, u, shown, data, ?_, took, left⟩
  exact (Option.some_inj.mp (spacing.symm.trans (by decide)))

/-- A break wipes what was received before. Two receiving nodes that are told the same
from a break on, at the same times, publish the same frames at the same steps behind
it, whatever either of them held before; the intervals between breaks agree from the
second start code on. -/
theorem Reachable.break_wipes_history {H' : Type} [Hardware H'] {d' r' : Nat} {s' : Node H' d' r'}
    {actions' : List (Action H')} (reachable : s.Reachable) (reachable' : s'.Reachable)
    (receiving : s.link.engine.receiving = true) (receiving' : s'.link.engine.receiving = true)
    (listens : ∀ action ∈ actions, action.Listens)
    (listens' : ∀ action ∈ actions', action.Listens) :
    ∃ t story t' story', s.Hears actions story t ∧ s'.Hears actions' story' t' ∧
      ∀ before before' first first' behind behind',
        story = before ++ first :: behind → story' = before' ++ first' :: behind' →
        first.IsBreak →
        (first :: behind).map Occasion.stimulus = (first' :: behind').map Occasion.stimulus →
        ∀ i o o', behind[i]? = some o → behind'[i]? = some o' →
          o.published.map Frame.withoutInterval = o'.published.map Frame.withoutInterval ∧
          (2 ≤ startCodes true (behind.take (i + 1)) → o.published = o'.published) := by
  obtain ⟨t, story, hears⟩ := reachable.sound.hears receiving listens
  obtain ⟨t', story', hears'⟩ := reachable'.sound.hears receiving' listens'
  refine ⟨t, story, t', story', hears, hears', ?_⟩
  rintro before before' first first' behind behind' rfl rfl isBreak same i o o' atStep atStep'
  obtain ⟨_, _, follows⟩ := hears.scene.follows.split
  obtain ⟨_, _, follows'⟩ := hears'.scene.follows.split
  exact Receiver.published_eq_of_lineBreak follows follows' isBreak same atStep atStep'

/-- A part of a DMX frame, received before. -/
def earlierRun : List (Action Bench) :=
  [.disturb Bench.receiveBreak, .perform (.interrupt .uart),
    .disturb (Bench.receive [0x00, 0x05] 0x01), .perform (.interrupt .uart)]

/-- The break behind it publishes that part, and the interval between the two breaks
is known; nothing else is left of it. -/
theorem Reachable.break_wipes_history_slots :
    ∃ s t s' t' : Node Bench 0 0, s.Reachable ∧ s'.Reachable ∧
      s.Hears slotsRun (⟨.signal .lineBreak, 1000, []⟩ ::
        (slotsFrame 1000 ++ [slotsTimeout 1000 0])) t ∧
      s'.Hears slotsRun (⟨.signal .lineBreak, 1000, [.dmx { slots := [0x05], slotToSlot := 44 }]⟩ ::
        (slotsFrame 1000 ++ [slotsTimeout 1000 1000])) t' ∧
      (slotsTimeout 1000 0).published.map Frame.withoutInterval =
        (slotsTimeout 1000 1000).published.map Frame.withoutInterval := by
  have carried (before : List (Action Bench)) (first : Occasion) (interval : Micros)
      (h : (powerUp {} : Node Bench 0 0).Ends
          (benchStart ++ before ++ [.disturb (Bench.advance 1000)]) fun s =>
        s.link.engine.receiving = true ∧ s.Ends slotsRun fun t =>
          t.link.line.journal.occasions = s.link.line.journal.occasions ++
            first :: (slotsFrame 1000 ++ [slotsTimeout 1000 interval])) :
      ∃ s t : Node Bench 0 0, s.Reachable ∧ s.link.engine.receiving = true ∧
        s.run slotsRun = .ok t ∧ t.link.line.journal.occasions = s.link.line.journal.occasions ++
          first :: (slotsFrame 1000 ++ [slotsTimeout 1000 interval]) := by
    obtain ⟨s, started, receiving, t, ran, told⟩ := h
    exact ⟨s, t, ⟨{}, _, started⟩, receiving, ran, told⟩
  obtain ⟨s, t, reachable, receiving, ran, told⟩ :=
    carried [] ⟨.signal .lineBreak, 1000, []⟩ 0 (by decide +kernel)
  obtain ⟨s', t', reachable', receiving', ran', told'⟩ := carried earlierRun
    ⟨.signal .lineBreak, 1000, [.dmx { slots := [0x05], slotToSlot := 44 }]⟩ 1000
    (by decide +kernel)
  have listens : ∀ action ∈ slotsRun, action.Listens := by simp [slotsRun, Action.Listens]
  obtain ⟨_, _, _, _, hears, hears', equal⟩ := Reachable.break_wipes_history reachable reachable'
    receiving receiving' listens listens
  obtain ⟨rfl, rfl⟩ := hears.unique ran told
  obtain ⟨rfl, rfl⟩ := hears'.unique ran' told'
  exact ⟨s, _, s', _, reachable, reachable', hears, hears',
    (equal [] [] _ _ _ _ rfl rfl rfl (by decide) 3 _ _ rfl rfl).1⟩

end Dmx512.Node
