import Dmx512.Proofs.Reception.Story

/-!
# Which DMX frames are published

A DMX frame ends with its last slot or, from its first slot on, when its
deadline has passed: a timeout or a break that comes then publishes the slots
that have arrived. The deadline follows from the last two arrivals alone, so the
alarm path and the break path agree on it.
-/

namespace Dmx512

open Standard

abbrev Arrival := UInt8 × Micros

/-- The bytes without error that arrive in a story, with their times. -/
def storyArrivals (story : List Occasion) : List Arrival :=
  story.filterMap fun o => o.byte?.map fun byte => (byte, o.time)

theorem storyArrivals_append (first second : List Occasion) :
    storyArrivals (first ++ second) = storyArrivals first ++ storyArrivals second :=
  List.filterMap_append

theorem storyArrivals_timeout {o : Occasion} (timeout : o.cause = .timeout)
    (rest : List Occasion) : storyArrivals (o :: rest) = storyArrivals rest := by
  simp [storyArrivals, Occasion.byte?, timeout]

theorem storyArrivals_byte {o : Occasion} {byte : UInt8}
    (arrives : o.cause = .signal (.byte byte)) (rest : List Occasion) :
    storyArrivals (o :: rest) = (byte, o.time) :: storyArrivals rest := by
  simp [storyArrivals, Occasion.byte?, arrives]

theorem map_fst_storyArrivals (story : List Occasion) :
    (storyArrivals story).map Prod.fst = storyBytes story := by
  induction story with
  | nil => rfl
  | cons o rest ih =>
      cases arrives : o.byte? with
      | none => simpa [storyArrivals, storyBytes, arrives] using ih
      | some byte => simpa [storyArrivals, storyBytes, arrives] using ih

theorem length_storyArrivals (story : List Occasion) :
    (storyArrivals story).length = (storyBytes story).length := by
  rw [← map_fst_storyArrivals, List.length_map]

/-- The spacing of the last two arrivals; there is none before the first slot. -/
def slotSpacing? (arrivals : List Arrival) : Option Micros :=
  match arrivals.reverse with
  | (_, last) :: (_, previous) :: _ => some (max (elapsed last previous) spacingFloor)
  | _ => none

/-- When a frame ends without a further slot; never before its first slot. -/
def slotDeadline? (arrivals : List Arrival) : Option Micros :=
  match arrivals.reverse with
  | (_, last) :: (_, previous) :: _ =>
    some (last + max (elapsed last previous) spacingFloor + timeoutGuard)
  | _ => none

/-- The deadline comes from the last two arrivals. -/
theorem slotDeadline?_eq_some {arrivals : List Arrival} {deadline : Micros} :
    slotDeadline? arrivals = some deadline ↔
      ∃ front previous last, arrivals = front ++ [previous, last] ∧
        deadline = last.2 + max (elapsed last.2 previous.2) spacingFloor + timeoutGuard := by
  constructor
  · intro pending
    rw [slotDeadline?] at pending
    split at pending
    · rename_i byte last byte' previous front latest
      refine ⟨front.reverse, (byte', previous), (byte, last), ?_,
        (Option.some_inj.mp pending).symm⟩
      rw [← List.reverse_reverse arrivals, latest]
      simp
    · cases pending
  · rintro ⟨front, previous, last, rfl, rfl⟩
    simp [slotDeadline?]

/-- Whether a frame has ended at `now`. -/
def slotsOverdue (arrivals : List Arrival) (now : Micros) : Bool :=
  (slotDeadline? arrivals).any (isDue now)

/-- A frame that has ended has a slot, and so a spacing. -/
theorem exists_slotSpacing {arrivals : List Arrival} {now : Micros}
    (overdue : slotsOverdue arrivals now = true) :
    ∃ spacing, slotSpacing? arrivals = some spacing := by
  rw [slotsOverdue, slotDeadline?] at overdue
  rw [slotSpacing?]
  split at overdue
  · exact ⟨_, rfl⟩
  · cases overdue

/-- No timeout of a story comes when the frame has ended; `arrived` came before
the story. -/
def TimeoutsEarly (arrived : List Arrival) (story : List Occasion) : Prop :=
  ∀ before o after, story = before ++ o :: after → o.cause = .timeout →
    slotsOverdue (arrived ++ storyArrivals before) o.time = false

theorem TimeoutsEarly.head {arrived : List Arrival} {o : Occasion} {rest : List Occasion}
    (h : TimeoutsEarly arrived (o :: rest)) (timeout : o.cause = .timeout) :
    slotsOverdue arrived o.time = false := by
  simpa [storyArrivals] using h [] o rest rfl timeout

theorem TimeoutsEarly.tail {arrived : List Arrival} {o : Occasion} {rest : List Occasion}
    (h : TimeoutsEarly arrived (o :: rest)) :
    TimeoutsEarly (arrived ++ storyArrivals [o]) rest := by
  intro before p after split timeout
  have := h (o :: before) p after (by rw [split]; rfl) timeout
  rw [List.append_assoc, ← storyArrivals_append]
  exact this

theorem TimeoutsEarly.of_signals {arrived : List Arrival} {story : List Occasion}
    (h : ∀ o ∈ story, o.cause ≠ .timeout) : TimeoutsEarly arrived story := by
  rintro before o after rfl timeout
  exact absurd timeout (h o (by simp))

theorem TimeoutsEarly.left {arrived : List Arrival} {front late : List Occasion}
    (h : TimeoutsEarly arrived (front ++ late)) : TimeoutsEarly arrived front := by
  intro before o after split timeout
  exact h before o (after ++ late) (by rw [split, List.append_assoc, List.cons_append]) timeout

namespace Receiver

/-- A receiver has filled a DMX frame with arrivals and awaits more. -/
structure Fills (r : Receiver) (arrivals : List Arrival) : Prop where
  wellFormed : r.WellFormed
  state : r.state = .dmxData
  bytes : r.dmxBytes = arrivals.map Prod.fst
  slotTime : arrivals.getLast?.map Prod.snd = some r.slotTime
  deadline : r.deadline = slotDeadline? arrivals
  spacing : ∀ spacing, slotSpacing? arrivals = some spacing → r.slotSpacing = spacing

namespace Fills

variable {r : Receiver} {arrivals : List Arrival}

theorem index_eq (h : r.Fills arrivals) : r.index = arrivals.length := by
  obtain ⟨_, high, _⟩ := h.wellFormed.holds h.state
  have length : r.dmxBytes.length = r.index :=
    Buffer.length_take r.dmxBuffer (Nat.le_succ_of_le high)
  rw [← length, h.bytes, List.length_map]

theorem overdue_eq (h : r.Fills arrivals) (now : Micros) :
    r.overdue now = slotsOverdue arrivals now := by
  rw [slotsOverdue, ← h.deadline, overdue, h.state]
  cases r.deadline <;> rfl

theorem data_dmxFrame (h : r.Fills arrivals) : r.dmxFrame.data = arrivals.map Prod.fst := by
  obtain ⟨low, _, code⟩ := h.wellFormed.holds h.state
  rw [Receiver.data_dmxFrame low code, h.bytes]

/-- A timeout publishes the slots that have arrived if the frame has ended, and
otherwise keeps them. -/
theorem timeout (h : r.Fills arrivals) (now : Micros) :
    if slotsOverdue arrivals now then
      ∃ t, r.attend .timeout now = .ok (t, some (.dmx r.dmxFrame)) ∧ t.state = .idle
    else
      r.attend .timeout now = .ok (r, none) := by
  obtain ⟨low, high, code⟩ := h.wellFormed.holds h.state
  split
  · rename_i due
    rw [attend, Receiver.onTimeout, h.overdue_eq, if_pos due,
      publishDmx_eq low (Nat.le_succ_of_le high) code]
    exact ⟨_, rfl, rfl⟩
  · rename_i early
    rw [attend, Receiver.onTimeout, h.overdue_eq, if_neg early]
    rfl

/-- A break publishes what a timeout at its time would, and drops the rest. -/
theorem lineBreak (h : r.Fills arrivals) (now : Micros) :
    ∃ t, r.attend (.signal .lineBreak) now =
        .ok (t, if slotsOverdue arrivals now then some (.dmx r.dmxFrame) else none) ∧
      t.state = .lineBreak := by
  have timeout := h.timeout now
  rw [attend] at timeout
  rw [attend, hear, Receiver.onBreak]
  split at timeout
  · rename_i due
    obtain ⟨t, ended, _⟩ := timeout
    rw [ended, if_pos due]
    exact ⟨_, rfl, rfl⟩
  · rename_i early
    rw [timeout, if_neg early]
    exact ⟨_, rfl, rfl⟩

/-- What a further arrival makes of the deadline and the spacing. -/
theorem slotDeadline?_append {previous : Micros} (byte : UInt8) (now : Micros)
    (last : arrivals.getLast?.map Prod.snd = some previous) :
    slotDeadline? (arrivals ++ [(byte, now)]) =
        some (now + max (elapsed now previous) spacingFloor + timeoutGuard) ∧
      slotSpacing? (arrivals ++ [(byte, now)]) =
        some (max (elapsed now previous) spacingFloor) := by
  obtain ⟨⟨other, _⟩, found, rfl⟩ := Option.map_eq_some_iff.mp last
  obtain ⟨front, rfl⟩ := List.getLast?_eq_some_iff.mp found
  simp [slotDeadline?, slotSpacing?]

/-- A slot joins the frame as long as there are to be more. -/
theorem slot (h : r.Fills arrivals) (byte : UInt8) (now : Micros)
    (more : arrivals.length < maxSlots) :
    ∃ t, r.attend (.signal (.byte byte)) now = .ok (t, none) ∧
      t.Fills (arrivals ++ [(byte, now)]) := by
  have index := h.index_eq
  have room : r.index < dmxCapacity := by
    simp only [maxSlots, dmxCapacity] at more ⊢
    omega
  have notLast : r.index + 1 ≠ dmxCapacity := by
    simp only [maxSlots, dmxCapacity] at more ⊢
    omega
  obtain ⟨_, _, attended, wf⟩ := h.wellFormed.attend (.signal (.byte byte)) now
  obtain ⟨deadline, spacing⟩ := slotDeadline?_append byte now h.slotTime
  have ended : r.attend (.signal (.byte byte)) now = .ok ({ r.withSlot byte now room with
      deadline := some (now + max (elapsed now r.slotTime) spacingFloor + timeoutGuard) },
      none) := by
    simp only [attend, hear, onByte, h.state]
    rw [onSlot_eq byte now room, if_neg notLast]
  rw [ended] at attended
  cases attended
  refine ⟨_, ended, wf, h.state, ?_, ?_, deadline.symm, ?_⟩
  · rw [List.map_append, ← h.bytes]
    exact dmxBytes_withSlot byte now room
  · rw [List.getLast?_concat]
    rfl
  · intro measured found
    rw [spacing] at found
    exact Option.some_inj.mp found

/-- The last slot publishes the frame. -/
theorem lastSlot (h : r.Fills arrivals) (byte : UInt8) (now : Micros)
    (last : arrivals.length = maxSlots) :
    ∃ t frame, r.attend (.signal (.byte byte)) now = .ok (t, some (.dmx frame)) ∧
      t.state = .idle ∧ frame.data = arrivals.map Prod.fst ++ [byte] := by
  obtain ⟨_, _, code⟩ := h.wellFormed.holds h.state
  obtain ⟨t, frame, ended, idle, _, data, _⟩ := onSlot_last byte now (h.index_eq.trans last) code
  refine ⟨t, frame, ?_, idle, by rw [data, h.bytes]⟩
  simpa only [attend, hear, onByte, h.state] using ended

/-- While slots are missing and no timeout comes late, the slots are kept and
nothing is published. -/
theorem follows {t : Receiver} {story : List Occasion} (follows : Follows r story t)
    (h : r.Fills arrivals) (clean : ∀ o ∈ story, o.IsClean) (early : TimeoutsEarly arrivals story)
    (missing : (arrivals ++ storyArrivals story).length ≤ maxSlots) :
    t.Fills (arrivals ++ storyArrivals story) ∧ ∀ o ∈ story, o.published = [] := by
  induction follows generalizing arrivals with
  | nil => simpa [storyArrivals] using h
  | @cons r m t o rest frame now published later ih =>
      obtain ⟨first, others⟩ := List.forall_mem_cons.mp clean
      have tail := early.tail
      rw [List.forall_mem_cons]
      rcases first with timeout | ⟨value, arrives⟩
      · rw [storyArrivals_timeout timeout] at missing tail ⊢
        have stale := h.timeout o.time
        rw [early.head timeout, if_neg Bool.false_ne_true] at stale
        rw [timeout, stale] at now
        cases now
        obtain ⟨fills, silent⟩ := ih h others (by simpa [storyArrivals] using tail) missing
        exact ⟨fills, published, silent⟩
      · have joined : arrivals ++ storyArrivals (o :: rest) =
            arrivals ++ [(value, o.time)] ++ storyArrivals rest := by
          rw [storyArrivals_byte arrives, List.append_assoc, List.singleton_append]
        rw [storyArrivals_byte arrives] at tail
        rw [joined] at missing ⊢
        obtain ⟨next, ended, fills⟩ := h.slot value o.time (by
          simp only [List.length_append, List.length_singleton] at missing
          omega)
        rw [arrives, ended] at now
        cases now
        obtain ⟨fills, silent⟩ := ih fills others tail missing
        exact ⟨fills, published, silent⟩

/-- A timeout or a break publishes the slots that have arrived exactly if the frame has
ended. A break drops them, and an early timeout keeps the receiver as it is. -/
theorem closes {t : Receiver} {o : Occasion} (h : r.Fills arrivals) (follows : Follows r [o] t)
    (closing : o.cause = .timeout ∨ o.IsBreak) :
    (if slotsOverdue arrivals o.time then
      ∃ frame, o.published = [.dmx frame] ∧ frame.data = arrivals.map Prod.fst ∧
        slotSpacing? arrivals = some frame.slotToSlot
    else o.published = [] ∧ (o.cause = .timeout → t = r)) ∧
    (o.IsBreak → t.state = .lineBreak) := by
  have frame (due : slotsOverdue arrivals o.time = true) :
      r.dmxFrame.data = arrivals.map Prod.fst ∧
        slotSpacing? arrivals = some r.dmxFrame.slotToSlot := by
    obtain ⟨spacing, found⟩ := exists_slotSpacing due
    exact ⟨h.data_dmxFrame, found.trans (congrArg some (h.spacing spacing found).symm)⟩
  cases follows with
  | cons now published later =>
      cases later
      rcases closing with timeout | isBreak
      · have ended := h.timeout o.time
        rw [timeout] at now
        refine ⟨?_, fun isBreak => by rw [Occasion.IsBreak, timeout] at isBreak; cases isBreak⟩
        split at ended
        · rename_i due
          obtain ⟨_, attended, _⟩ := ended
          cases now.symm.trans attended
          rw [if_pos due]
          exact ⟨_, published, frame due⟩
        · rename_i early
          cases now.symm.trans ended
          rw [if_neg early]
          exact ⟨published, fun _ => rfl⟩
      · obtain ⟨_, ended, broken⟩ := h.lineBreak o.time
        rw [isBreak] at now
        cases now.symm.trans ended
        refine ⟨?_, fun _ => broken⟩
        split
        · rename_i due
          rw [if_pos due] at published
          exact ⟨_, published, frame due⟩
        · rename_i early
          rw [if_neg early] at published
          refine ⟨published, fun timeout => ?_⟩
          rw [isBreak] at timeout
          cases timeout

end Fills

/-- A frame begins with its start code. -/
theorem Fills.of_startCode {r : Receiver} (wf : r.WellFormed) (state : r.state = .lineBreak)
    (now : Micros) :
    ∃ t, r.attend (.signal (.byte dmxStartCode)) now = .ok (t, none) ∧
      t.Fills [(dmxStartCode, now)] := by
  obtain ⟨counters, started⟩ := r.onStartCode_dmx now
  obtain ⟨t, frame, attended, next⟩ := wf.attend (.signal (.byte dmxStartCode)) now
  have ended := attended
  simp only [attend, hear, onByte, state, started] at ended
  cases ended
  exact ⟨_, attended, next, rfl, dmxBytes_startCode dmxStartCode rfl rfl, rfl,
    wf.deadline_eq_none (by rw [state]; decide), by simp [slotSpacing?]⟩

/-- Behind a break, the slots that follow the code of dimmer data are kept. -/
theorem fills_of_lineBreak {r t : Receiver} {story : List Occasion} (wf : r.WellFormed)
    (state : r.state = .lineBreak) (follows : Follows r story t)
    (clean : ∀ o ∈ story, o.IsClean) (code : (storyBytes story).head? = some dmxStartCode)
    (early : TimeoutsEarly [] story) (missing : (storyArrivals story).length ≤ maxSlots) :
    t.Fills (storyArrivals story) ∧ ∀ o ∈ story, o.published = [] := by
  induction follows with
  | nil => simp [storyBytes] at code
  | @cons r m t o rest frame now published later ih =>
      obtain ⟨first, others⟩ := List.forall_mem_cons.mp clean
      have tail := early.tail
      rw [List.forall_mem_cons]
      rcases first with timeout | ⟨value, arrives⟩
      · rw [storyBytes_timeout timeout] at code
        rw [storyArrivals_timeout timeout] at missing tail ⊢
        rw [timeout, attend, onTimeout_stale (by rw [state]; decide)] at now
        cases now
        obtain ⟨fills, silent⟩ :=
          ih wf state others code (by simpa [storyArrivals] using tail) missing
        exact ⟨fills, published, silent⟩
      · rw [storyBytes_byte arrives] at code
        rw [storyArrivals_byte arrives] at missing tail ⊢
        have value_eq : value = dmxStartCode := by simpa using code
        obtain ⟨next, ended, fills⟩ := Fills.of_startCode wf state o.time
        rw [arrives, value_eq, ended] at now
        cases now
        rw [value_eq] at missing tail ⊢
        obtain ⟨fills, silent⟩ := fills.follows later others tail missing
        exact ⟨fills, published, silent⟩

section Frames

variable {r t : Receiver} {before frame rest : List Occasion} {first : Occasion}

/-- Behind a break, nothing is published while slots are missing. -/
theorem slots_kept (wf : r.WellFormed) (follows : Follows r (before ++ first :: (frame ++ rest)) t)
    (isBreak : first.IsBreak) (clean : ∀ o ∈ frame, o.IsClean)
    (code : (storyBytes frame).head? = some dmxStartCode) (early : TimeoutsEarly [] frame)
    (missing : (storyBytes frame).length ≤ maxSlots) :
    (∀ o ∈ frame, o.published = []) ∧
      ∃ m, Follows r (before ++ first :: frame) m ∧ Follows m rest t ∧
        m.Fills (storyArrivals frame) := by
  obtain ⟨_, wf', state, heard, later⟩ := wf.follows_lineBreak isBreak follows
  obtain ⟨m, inFrame, inRest⟩ := later.split
  rw [← length_storyArrivals] at missing
  obtain ⟨fills, silent⟩ := fills_of_lineBreak wf' state inFrame clean code early missing
  refine ⟨silent, m, ?_, inRest, fills⟩
  rw [show before ++ first :: frame = before ++ [first] ++ frame by simp]
  exact heard.append inFrame

/-- Behind a break, the last slot publishes the frame and leaves the receiver idle. -/
theorem lastSlot_published {front : List Occasion} {last : Occasion} (wf : r.WellFormed)
    (follows : Follows r (before ++ first :: (front ++ last :: rest)) t)
    (isBreak : first.IsBreak) (clean : ∀ o ∈ front, o.IsClean)
    (code : (storyBytes front).head? = some dmxStartCode) (early : TimeoutsEarly [] front)
    (full : (storyBytes front).length = maxSlots) {byte : UInt8}
    (arrives : last.cause = .signal (.byte byte)) :
    (∃ frame, last.published = [.dmx frame] ∧ frame.data = storyBytes front ++ [byte]) ∧
      ∃ m, Follows r (before ++ first :: (front ++ [last])) m ∧ Follows m rest t ∧
        m.state = .idle := by
  obtain ⟨_, m, heard, later, fills⟩ :=
    slots_kept wf follows isBreak clean code early (Nat.le_of_eq full)
  have length : (storyArrivals front).length = maxSlots := by
    rw [length_storyArrivals, full]
  obtain ⟨u, frame, attended, idle, data⟩ := fills.lastSlot byte last.time length
  cases later with
  | cons now published later =>
      rw [arrives] at now
      cases now.symm.trans attended
      refine ⟨⟨frame, published, by rw [data, map_fst_storyArrivals]⟩, u, ?_, later, idle⟩
      rw [show before ++ first :: (front ++ [last]) = before ++ first :: front ++ [last] by simp]
      exact heard.append (.cons (arrives ▸ attended) published (.nil _))

end Frames

end Receiver

end Dmx512
