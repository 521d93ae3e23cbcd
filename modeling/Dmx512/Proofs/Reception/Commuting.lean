import Dmx512.Proofs.Clock
import Dmx512.Proofs.Reception.Intervals

/-!
# Breaks and timeouts at one instant

A break ends an overdue DMX frame and drops any other; a timeout ends an overdue one and keeps
any other. Whichever of the two comes first therefore ends the frame, and the other finds none.
What comes behind the break at the same instant is not overdue at it: the first slot of a frame
puts its deadline ahead of the clock. So a timeout at that instant makes no difference, before
the break or behind everything.
-/

namespace Dmx512

open Standard

/-- A frame of which every byte comes at one instant has not ended at it. -/
theorem slotsOverdue_instant {arrivals : List Arrival} {now : Micros}
    (instant : ∀ a ∈ arrivals, a.2 = now) : slotsOverdue arrivals now = false := by
  cases pending : slotDeadline? arrivals with
  | none => simp [slotsOverdue, pending]
  | some deadline =>
      obtain ⟨front, previous, last, rfl, rfl⟩ := slotDeadline?_eq_some.mp pending
      have first : previous.2 = now := instant previous (by simp)
      have second : last.2 = now := instant last (by simp)
      have least : max (elapsed now now) spacingFloor = spacingFloor := by
        rw [elapsed_self]
        rfl
      have same : now + spacingFloor + timeoutGuard = spacingFloor + timeoutGuard + now := by
        rw [UInt32.add_assoc, UInt32.add_comm]
      have ahead : isDue (0 + now) (spacingFloor + timeoutGuard + now) = false := by
        rw [isDue_add_right]
        rfl
      rw [UInt32.zero_add] at ahead
      rw [slotsOverdue, pending, first, second, least, same]
      exact ahead

/-- What arrives behind the latest break is part of what is told. -/
theorem length_arrivals_le (story : List Occasion) :
    (storyArrivals (sinceBreak story)).length ≤ story.length :=
  (List.length_filterMap_le _ _).trans (List.rtakeWhile_suffix _ _).length_le

theorem arrivals_instant {story : List Occasion} {now : Micros}
    (instant : ∀ o ∈ story, o.time = now) : ∀ a ∈ storyArrivals (sinceBreak story), a.2 = now := by
  intro a arrived
  obtain ⟨o, told, arrives⟩ := List.mem_filterMap.mp arrived
  obtain ⟨byte, _, rfl⟩ := Option.map_eq_some_iff.mp arrives
  exact instant o ((List.rtakeWhile_suffix _ _).mem told)

namespace Receiver

variable {r t : Receiver} {cause : Cause} {now : Micros} {frame : Option Frame}

/-- Only a frame of slots ends without a further slot. -/
theorem overdue_of_state (state : r.state ≠ .dmxData) (now : Micros) : r.overdue now = false := by
  rw [overdue]
  split
  · contradiction
  · rfl

/-- A frame that is short of slots and has not ended is not published. -/
theorem Fills.silent {arrivals : List Arrival} (h : r.Fills arrivals)
    (early : slotsOverdue arrivals now = false) (more : arrivals.length < maxSlots)
    (attended : r.attend cause now = .ok (t, frame)) : frame = none := by
  cases cause with
  | timeout =>
      have ended := h.timeout now
      rw [early, if_neg Bool.false_ne_true, attended] at ended
      cases ended
      rfl
  | signal signal =>
      cases signal with
      | lineBreak =>
          obtain ⟨u, ended, _⟩ := h.lineBreak now
          rw [early, if_neg Bool.false_ne_true, attended] at ended
          cases ended
          rfl
      | byte value =>
          obtain ⟨u, ended, _⟩ := h.slot value now more
          cases attended.symm.trans ended
          rfl
      | damaged =>
          cases attended
          rfl

/-- What is told at one instant, too little of it to fill a frame, completes no DMX frame. -/
structure Rushed (now : Micros) (story : List Occasion) (r : Receiver) : Prop where
  constructs : r.Constructs story
  silent : (∀ o ∈ story, o.time = now) → story.length ≤ maxSlots →
    ∀ o ∈ story, ∀ frame, .dmx frame ∉ o.published

namespace Rushed

variable {story : List Occasion}

/-- Behind a break nothing has been told yet. -/
theorem of_lineBreak (wf : r.WellFormed) (awaited : r.state = .lineBreak) : r.Rushed now [] where
  constructs := {
    wellFormed := wf
    awaited _ := nofun
    code slots := by
      rw [awaited] at slots
      cases slots
    slots slots := by
      rw [awaited] at slots
      cases slots }
  silent _ _ := nofun

theorem respond {time : Micros} (h : r.Rushed now story)
    (attended : r.attend cause time = .ok (t, frame)) :
    t.Rushed now (story ++ [⟨cause, time, frame.toList⟩]) := by
  refine ⟨h.constructs.respond attended, fun instant short => ?_⟩
  obtain ⟨before, last⟩ := List.forall_mem_append.mp instant
  obtain rfl : time = now := last _ (List.mem_singleton.mpr rfl)
  rw [List.length_append, List.length_singleton] at short
  refine List.forall_mem_append.mpr ⟨h.silent before (Nat.le_of_succ_le short), ?_⟩
  rw [List.forall_mem_singleton]
  intro published shown
  obtain rfl : frame = some (.dmx published) := Option.mem_toList.mp shown
  -- A DMX frame would be the one under construction, which has not ended and is not full.
  have slots := (h.constructs.wellFormed.responds attended).dmx.1
  have more := Nat.lt_of_le_of_lt (length_arrivals_le story) short
  have early := slotsOverdue_instant (arrivals_instant before)
  cases (h.constructs.slots slots).silent early more attended

theorem follows {part : List Occasion} (h : r.Rushed now story) (follows : Follows r part t) :
    t.Rushed now (story ++ part) :=
  follows.preserves (fun story r => r.Rushed now story) (fun _ _ _ _ _ _ rushed => rushed.respond)
    h

/-- At that instant no frame has ended. -/
theorem overdue (h : r.Rushed now story) (instant : ∀ o ∈ story, o.time = now) :
    r.overdue now = false := by
  by_cases slots : r.state = .dmxData
  · rw [(h.constructs.slots slots).overdue_eq]
    exact slotsOverdue_instant (arrivals_instant instant)
  · exact overdue_of_state slots now

end Rushed

def ended? (r : Receiver) (now : Micros) : Option Frame :=
  if r.overdue now then some (.dmx r.dmxFrame) else none

theorem onTimeout_early (early : r.overdue now = false) : r.onTimeout now = .ok (r, none) := by
  rw [Receiver.onTimeout, early]
  rfl

/-- A timeout publishes what has ended, and leaves nothing that has. -/
theorem WellFormed.onTimeout_ended (h : r.WellFormed) (now : Micros) :
    ∃ t, r.onTimeout now = .ok (t, r.ended? now) ∧ t.WellFormed ∧ t.overdue now = false := by
  rw [ended?]
  cases due : r.overdue now with
  | false =>
      rw [onTimeout_early due]
      exact ⟨r, rfl, h, due⟩
  | true =>
      have slots : r.state = .dmxData := by
        rw [overdue] at due
        split at due
        · assumption
        · contradiction
      obtain ⟨low, high, code⟩ := h.holds slots
      have published := publishDmx_eq low (Nat.le_succ_of_le high) code
      rw [Receiver.onTimeout, due, if_pos rfl, published]
      exact ⟨_, rfl, .of_idle rfl rfl, rfl⟩

/-- A break at the instant of a timeout, or behind it, makes the same of a receiver, and what has
ended is published by the first of them. -/
theorem WellFormed.onBreak_ended (h : r.WellFormed) (now : Micros) :
    ∃ m t, r.onTimeout now = .ok (m, r.ended? now) ∧ r.onBreak now = .ok (t, r.ended? now) ∧
      m.onBreak now = .ok (t, none) ∧ t.WellFormed ∧ t.state = .lineBreak := by
  obtain ⟨m, ended, wf, early⟩ := h.onTimeout_ended now
  refine ⟨m, { m with state := .lineBreak, deadline := none, breakTime := now }, ended, ?_, ?_,
    .of_lineBreak rfl rfl, rfl⟩
  · rw [Receiver.onBreak, ended]
    rfl
  · rw [Receiver.onBreak, onTimeout_early early]
    rfl

/-- A well-formed receiver lives through whatever causes it meets at one instant. -/
theorem WellFormed.lives (h : r.WellFormed) (now : Micros) (causes : List Cause) :
    ∃ story t, Follows r story t ∧ story.map Occasion.cause = causes ∧
      ∀ o ∈ story, o.time = now := by
  induction causes generalizing r with
  | nil => exact ⟨[], r, .nil r, rfl, nofun⟩
  | cons cause rest ih =>
      obtain ⟨m, frame, attended, wf⟩ := h.attend cause now
      obtain ⟨story, t, follows, met, instant⟩ := ih wf
      exact ⟨⟨cause, now, frame.toList⟩ :: story, t, .cons attended rfl follows,
        congrArg (cause :: ·) met, List.forall_mem_cons.mpr ⟨rfl, instant⟩⟩

/-- A break with signals behind it, and a timeout, all at one instant. Whether the timeout comes
behind the signals or before the break, the receiver ends the same and publishes the same in
between. What has ended is published by the break or by the timeout, whichever comes first; and
no other DMX frame is published. -/
theorem WellFormed.break_beside_timeout (h : r.WellFormed) (now : Micros) (signals : List Signal)
    (short : signals.length ≤ maxSlots) :
    ∃ later t,
      r.Follows (⟨.signal .lineBreak, now, (r.ended? now).toList⟩ ::
        (later ++ [⟨.timeout, now, []⟩])) t ∧
      r.Follows (⟨.timeout, now, (r.ended? now).toList⟩ ::
        ⟨.signal .lineBreak, now, []⟩ :: later) t ∧
      later.map Occasion.cause = signals.map Cause.signal ∧ (∀ o ∈ later, o.time = now) ∧
      ∀ o ∈ later, ∀ frame, .dmx frame ∉ o.published := by
  obtain ⟨m, broken, ended, breaks, broke, wf, awaited⟩ := h.onBreak_ended now
  obtain ⟨later, t, follows, met, instant⟩ := wf.lives now (signals.map Cause.signal)
  have count : later.length ≤ maxSlots := by
    have lengths := congrArg List.length met
    rw [List.length_map, List.length_map] at lengths
    omega
  have rushed : t.Rushed now later := (Rushed.of_lineBreak wf awaited).follows follows
  have stale : t.onTimeout now = .ok (t, none) := onTimeout_early (rushed.overdue instant)
  refine ⟨later, t, ?_, ?_, met, instant, rushed.silent instant count⟩
  · exact .cons breaks rfl (follows.append (.cons stale rfl (.nil t)))
  · exact .cons ended rfl (.cons broke rfl follows)

end Receiver

end Dmx512
