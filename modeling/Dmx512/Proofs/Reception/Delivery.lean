import Mathlib.Data.List.Chain
import Dmx512.Proofs.Rdm.Message
import Dmx512.Proofs.Reception.Acceptance
import Dmx512.Proofs.Reception.Completion
import Dmx512.Proofs.Reception.Progress

/-!
# What was sent is received

Behind a break, whatever a receiver was at before, the packet of a well-formed message
publishes that message, and the bytes of a DMX frame in the spacing of the line publish
that frame: a full one by itself, a shorter one with the timeout or the break that
follows it.
-/

namespace Dmx512

open Standard

namespace Message

variable {message : List UInt8} {sum : UInt16}

theorem packet_eq (message : List UInt8) : packet message =
    message ++ [(checksum message >>> 8).toUInt8] ++ [(checksum message).toUInt8] := by
  simp [packet, toBigEndian]

/-- The packet of a well-formed message is accepted. -/
theorem rdmAccepted_packet (valid : validate message = .ok sum) : RdmAccepted (packet message) := by
  obtain ⟨⟨long, _, _, second, _⟩, _⟩ := validate_eq_ok_iff.mp valid
  rw [packet_eq, rdmAccepted_iff (Nat.le_trans (by decide) long)]
  exact ⟨(bigEndian_toBigEndian _).symm, second⟩

/-- The packet of a well-formed message ends where the message declares. -/
theorem exists_declared (valid : validate message = .ok sum) :
    ∃ declared : UInt8, (packet message)[lengthOffset]? = some declared ∧ 3 ≤ declared.toNat ∧
      (packet message).length = rdmExtent declared := by
  obtain ⟨⟨long, _, _, _, declares⟩, _⟩ := validate_eq_ok_iff.mp valid
  obtain ⟨declared, found, length⟩ := Option.map_eq_some_iff.mp declares
  simp only [messageMin] at long
  refine ⟨declared, ?_, by omega, ?_⟩
  · rw [packet, List.getElem?_append_left (by simp only [lengthOffset]; omega), found]
  · rw [length_packet, rdmExtent, if_neg (by omega), length]

theorem head?_packet (valid : validate message = .ok sum) :
    (packet message).head? = some rdmStartCode := by
  obtain ⟨⟨_, _, first, second, declares⟩, _⟩ := validate_eq_ok_iff.mp valid
  exact Framed.head?_packet ⟨first, second, declares⟩

/-- A frame that holds the packet of a message holds that message. -/
theorem message?_packet (valid : validate message = .ok sum) :
    ({ data := packet message } : RdmFrame).message? = some message := by
  have kind : ({ data := packet message } : RdmFrame).kind = .message := by
    rw [RdmFrame.kind, head?_packet valid, if_neg (by decide)]
  rw [RdmFrame.message?, kind]
  simp only [length_packet, Nat.le_add_left, if_true, Nat.add_sub_cancel]
  rw [packet, List.take_left' rfl]

end Message

/-- Wherever a break and then `bytes` are told in a story, the bytes publish one frame,
which holds `message`, and no other RDM frame is published with them. -/
def PublishesMessage (story : List Occasion) (bytes message : List UInt8) : Prop :=
  ∀ before first packet rest, story = before ++ first :: (packet ++ rest) → first.IsBreak →
    Brings packet bytes →
    ∃ frame : RdmFrame, storyFrames packet = [.rdm frame] ∧
      (storyFrames (first :: packet)).filterMap Frame.rdm? = [frame] ∧
      frame.message? = some message

namespace Receiver

variable {r t : Receiver} {before packet rest : List Occasion} {first : Occasion}

/-- No RDM frame is published by a break. -/
theorem WellFormed.rdm?_of_lineBreak (h : r.WellFormed) (isBreak : first.IsBreak)
    (follows : Follows r (first :: rest) t) : first.published.filterMap Frame.rdm? = [] := by
  cases follows with
  | cons now published _ =>
      rw [isBreak] at now
      rw [published]
      cases h.responds now with
      | lineBreak _ _ ends => rcases ends with rfl | ⟨_, rfl⟩ <;> rfl

/-- With the break before it, a packet publishes no other RDM frame. -/
theorem WellFormed.rdm?_of_packet (h : r.WellFormed) (isBreak : first.IsBreak)
    (follows : Follows r (before ++ first :: (packet ++ rest)) t) :
    (storyFrames (first :: packet)).filterMap Frame.rdm? =
      (storyFrames packet).filterMap Frame.rdm? := by
  obtain ⟨_, early, later⟩ := follows.split
  rw [storyFrames_cons, List.filterMap_append,
    (h.follows early).rdm?_of_lineBreak isBreak later]
  rfl

theorem packet_published {message : List UInt8} {sum : UInt16}
    (valid : Message.validate message = .ok sum) (wf : r.WellFormed)
    (follows : Follows r (before ++ first :: (packet ++ rest)) t) (isBreak : first.IsBreak)
    (brings : Brings packet (Message.packet message)) :
    storyFrames packet = [.rdm { data := Message.packet message }] := by
  obtain ⟨declared, found, completes, finished⟩ := Message.exists_declared valid
  rw [Message.packet_eq] at brings
  obtain ⟨front, last, late, rfl, early, arrives, timeouts⟩ := brings.exists_last
  have whole : Brings (front ++ [last]) (Message.packet message) := by
    rw [Message.packet_eq]
    exact early.append (.byte arrives .nil)
  have parts : front ++ last :: late ++ rest = front ++ [last] ++ (late ++ rest) := by simp
  rw [parts] at follows
  obtain ⟨_, ends⟩ := rdm_published wf follows isBreak whole.clean
    (by rw [whole.storyBytes_eq, Message.head?_packet valid])
  rw [whole.storyBytes_eq] at ends
  obtain ⟨silent, published, m, _, later, idle, _⟩ :=
    ends front last declared rfl (by simp [Occasion.byte?, arrives]) found finished
  obtain ⟨_, behind, _⟩ := later.split
  obtain ⟨_, stale⟩ := behind.stale (by rw [idle]; decide) timeouts
  rw [if_pos ⟨completes, Message.rdmAccepted_packet valid⟩] at published
  exact storyFrames_eq_singleton front silent published stale

/-- Behind a break, the packet of a well-formed message publishes it. -/
theorem message_published {message : List UInt8} {sum : UInt16} {story : List Occasion}
    (valid : Message.validate message = .ok sum) (wf : r.WellFormed) (follows : Follows r story t) :
    PublishesMessage story (Message.packet message) message := by
  rintro before first packet rest rfl isBreak brings
  have published : storyFrames packet = [.rdm { data := Message.packet message }] :=
    packet_published valid wf follows isBreak brings
  refine ⟨_, published, ?_, Message.message?_packet valid⟩
  rw [wf.rdm?_of_packet isBreak follows, published]
  rfl

end Receiver

def Paced (spacing : Micros) (arrivals : List Arrival) : Prop :=
  arrivals.IsChain fun earlier later => later.2 = earlier.2 + spacing

/-- Behind slots in the spacing of the line, a frame has ended after a slot and the
guard time. -/
theorem Paced.slotsOverdue_eq {arrivals : List Arrival} {last : Micros}
    (paced : Paced slotTime arrivals) (two : 2 ≤ arrivals.length)
    (ends : arrivals.getLast?.map Prod.snd = some last) (now : Micros) :
    slotsOverdue arrivals now = isDue now (last + slotTime + timeoutGuard) := by
  obtain ⟨⟨byte, time⟩, found, rfl⟩ := Option.map_eq_some_iff.mp ends
  obtain ⟨others, rfl⟩ := List.getLast?_eq_some_iff.mp found
  rcases List.eq_nil_or_concat others with rfl | ⟨front, previous, rfl⟩
  · simp at two
  · rw [List.concat_eq_append, List.append_assoc] at paced
    have spacing : time = previous.2 + slotTime := (List.isChain_append_cons_cons.mp paced).2.1
    have measured : elapsed time previous.2 = slotTime := by
      rw [spacing, elapsed, UInt32.add_comm, UInt32.add_sub_cancel]
    simp only [slotsOverdue, slotDeadline?, List.concat_eq_append, List.reverse_append,
      List.reverse_cons, List.reverse_nil, List.nil_append, List.singleton_append, measured,
      Option.any_some]
    rfl

/-- A deadline is due from its time on for half the range of the clock. -/
theorem isDue_add {now since wait : Micros} (past : wait ≤ elapsed now since)
    (soon : elapsed now since < 0x80000000) : isDue now (since + wait) = true := by
  have rest : now - (since + wait) = elapsed now since - wait := by
    rw [elapsed]
    grind
  rw [isDue, rest, decide_eq_true_eq]
  exact UInt32.lt_of_le_of_lt (UInt32.sub_le past) soon

namespace Receiver

variable {r t : Receiver} {before frame gap rest : List Occasion} {first : Occasion}
variable {arrivals : List Arrival} {bytes : List UInt8}

/-- Timeouts publish the slots that have arrived at most once. -/
theorem Fills.timeouts (h : r.Fills arrivals) (follows : Follows r gap t)
    (served : ∀ o ∈ gap, o.cause = .timeout) :
    t = r ∧ storyFrames gap = [] ∨ t.state = .idle ∧ storyFrames gap = [.dmx r.dmxFrame] := by
  induction follows with
  | nil => exact .inl ⟨rfl, rfl⟩
  | @cons r m t o rest frame now published later ih =>
      obtain ⟨first, others⟩ := List.forall_mem_cons.mp served
      have ended := h.timeout o.time
      rw [first] at now
      split at ended
      · obtain ⟨_, attended, idle⟩ := ended
        cases now.symm.trans attended
        obtain ⟨rfl, silent⟩ := later.stale (by rw [idle]; decide) others
        exact .inr ⟨idle, storyFrames_eq_singleton [] nofun published silent⟩
      · cases now.symm.trans ended
        rw [storyFrames_cons, published]
        exact ih h others

/-- A break with no slots awaited publishes nothing. -/
theorem published_of_lineBreak (state : r.state ≠ .dmxData) (isBreak : first.IsBreak)
    (follows : Follows r (first :: rest) t) : first.published = [] := by
  cases follows with
  | cons now published _ =>
      rw [isBreak, attend, hear, Receiver.onBreak, onTimeout_stale state] at now
      cases now
      exact published

/-- Behind a break, a full frame publishes itself. -/
theorem fullFrame_published (wf : r.WellFormed)
    (follows : Follows r (before ++ first :: (frame ++ rest)) t) (isBreak : first.IsBreak)
    (brings : Brings frame bytes) (code : bytes.head? = some dmxStartCode)
    (full : bytes.length = dmxCapacity) (early : TimeoutsEarly [] frame) :
    ∃ published, storyFrames frame = [.dmx published] ∧ published.data = bytes := by
  rcases List.eq_nil_or_concat bytes with rfl | ⟨slots, value, rfl⟩
  · cases code
  rw [List.concat_eq_append] at brings code full ⊢
  obtain ⟨front, last, late, rfl, slotsBrought, arrives, timeouts⟩ := brings.exists_last
  rw [List.length_append, List.length_singleton] at full
  have length : slots.length = maxSlots := Nat.succ.inj full
  have parts : front ++ last :: late ++ rest = front ++ last :: (late ++ rest) := by simp
  rw [parts] at follows
  have code' : (storyBytes front).head? = some dmxStartCode := by
    rw [slotsBrought.storyBytes_eq]
    obtain ⟨_, _, rfl⟩ := List.exists_cons_of_length_eq_add_one length
    exact code
  obtain ⟨⟨published, shown, data⟩, m, _, later, idle⟩ := lastSlot_published wf follows isBreak
    slotsBrought.clean code' early.left (by rw [slotsBrought.storyBytes_eq, length]) arrives
  obtain ⟨silent, _⟩ := slots_kept wf follows isBreak slotsBrought.clean code' early.left
    (Nat.le_of_eq (by rw [slotsBrought.storyBytes_eq, length]))
  obtain ⟨_, behind, _⟩ := later.split
  obtain ⟨_, stale⟩ := behind.stale (by rw [idle]; decide) timeouts
  exact ⟨published, storyFrames_eq_singleton front silent shown stale,
    by rw [data, slotsBrought.storyBytes_eq]⟩

/-- Behind a break, a shorter frame in the spacing of the line is published by the
timeouts behind it or by the break that follows. -/
theorem shortFrame_published {closing : Occasion} {last : Micros} (wf : r.WellFormed)
    (follows : Follows r (before ++ first :: (frame ++ (gap ++ closing :: rest))) t)
    (isBreak : first.IsBreak) (brings : Brings frame bytes)
    (code : bytes.head? = some dmxStartCode) (two : 2 ≤ bytes.length)
    (short : bytes.length < dmxCapacity) (early : TimeoutsEarly [] frame)
    (paced : Paced Standard.slotTime (storyArrivals frame)) (served : ∀ o ∈ gap, o.cause = .timeout)
    (closes : closing.IsBreak) (ends : (storyArrivals frame).getLast?.map Prod.snd = some last)
    (due : Standard.slotTime + timeoutGuard ≤ elapsed closing.time last)
    (soon : elapsed closing.time last < 0x80000000) :
    ∃ published, storyFrames (frame ++ gap ++ [closing]) = [.dmx published] ∧
      published.data = bytes := by
  have missing : bytes.length ≤ maxSlots := Nat.le_of_lt_succ short
  obtain ⟨silent, m, _, later, fills⟩ := slots_kept wf follows isBreak brings.clean
    (by rw [brings.storyBytes_eq, code]) early (by rw [brings.storyBytes_eq]; exact missing)
  have data : m.dmxFrame.data = bytes := by
    rw [fills.data_dmxFrame, map_fst_storyArrivals, brings.storyBytes_eq]
  have overdue : slotsOverdue (storyArrivals frame) closing.time = true := by
    rw [paced.slotsOverdue_eq (by rw [length_storyArrivals, brings.storyBytes_eq]; exact two) ends,
      UInt32.add_assoc]
    exact isDue_add due soon
  obtain ⟨u, inGap, behind⟩ := later.split
  rw [storyFrames_append, storyFrames_append, storyFrames_eq_nil silent, List.nil_append]
  rcases fills.timeouts inGap served with ⟨rfl, none⟩ | ⟨idle, once⟩
  · obtain ⟨_, atClosing, _⟩ := Follows.split (show u.Follows ([closing] ++ rest) t from behind)
    have closed := (fills.closes atClosing (.inr closes)).1
    rw [if_pos overdue] at closed
    obtain ⟨published, shown, data, _⟩ := closed
    rw [none, storyFrames, List.flatMap_singleton, shown]
    refine ⟨published, rfl, ?_⟩
    rw [data, map_fst_storyArrivals, brings.storyBytes_eq]
  · rw [once, storyFrames, List.flatMap_singleton,
      published_of_lineBreak (by rw [idle]; decide) closes behind]
    exact ⟨_, rfl, data⟩

end Receiver

end Dmx512
