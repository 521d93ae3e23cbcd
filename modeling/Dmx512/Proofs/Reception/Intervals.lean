import Dmx512.Proofs.Reception.Underway

/-!
# The interval between two breaks

A packet begins with a break and the byte without error that is the next thing to be told
behind it. `storyPackets` lists the packets of a story. A DMX frame carries the interval from
the break of the packet before its own, if that was a DMX packet, and 0 otherwise. A break
whose start code is damaged, or that another break follows, begins no packet: it leaves the
packet before it the latest one.
-/

namespace Dmx512

open Standard

/-- When the break came that still awaits its start code behind an occasion. -/
def Occasion.awaits (o : Occasion) (awaited : Option Micros) : Option Micros :=
  match o.cause with
  | .signal .lineBreak => some o.time
  | .signal (.byte _) | .signal .damaged => none
  | .timeout => awaited

/-- The packet that an occasion begins: when its break came, and its start code. -/
def Occasion.packet? (o : Occasion) (awaited : Option Micros) : Option (Micros × UInt8) :=
  awaited.bind fun began => o.byte?.map fun code => (began, code)

theorem Occasion.packet?_eq_none {o : Occasion} (unread : o.byte? = none)
    (awaited : Option Micros) : o.packet? awaited = none := by
  rw [Occasion.packet?, unread]
  cases awaited <;> rfl

/-- When the break came that still awaits its start code behind a story. -/
def storyAwaits (awaited : Option Micros) : List Occasion → Option Micros
  | [] => awaited
  | o :: rest => storyAwaits (o.awaits awaited) rest

/-- The packets that begin in a story: when their breaks came, and their start codes. A
break may have come before the story. -/
def storyPackets (awaited : Option Micros) : List Occasion → List (Micros × UInt8)
  | [] => []
  | o :: rest => (o.packet? awaited).toList ++ storyPackets (o.awaits awaited) rest

/-- The interval from the latest of some packets to a break, if that was a DMX packet. -/
def breakInterval (packets : List (Micros × UInt8)) (began : Micros) : Micros :=
  match packets.getLast? with
  | some (previous, code) => if code = dmxStartCode then elapsed began previous else 0
  | none => 0

/-- When the latest of some packets began, if that was a DMX packet. -/
def latestDmx? (packets : List (Micros × UInt8)) : Option Micros :=
  match packets.getLast? with
  | some (began, code) => if code = dmxStartCode then some began else none
  | none => none

theorem breakInterval_eq (packets : List (Micros × UInt8)) (began : Micros) :
    breakInterval packets began = ((latestDmx? packets).map (elapsed began)).getD 0 := by
  rw [breakInterval, latestDmx?]
  cases packets.getLast? with
  | none => rfl
  | some packet =>
      dsimp only
      split <;> rfl

theorem storyAwaits_concat (awaited : Option Micros) (story : List Occasion) (o : Occasion) :
    storyAwaits awaited (story ++ [o]) = o.awaits (storyAwaits awaited story) := by
  induction story generalizing awaited with
  | nil => rfl
  | cons _ _ ih => exact ih _

theorem storyPackets_append (awaited : Option Micros) (story more : List Occasion) :
    storyPackets awaited (story ++ more) =
      storyPackets awaited story ++ storyPackets (storyAwaits awaited story) more := by
  induction story generalizing awaited with
  | nil => rfl
  | cons o rest ih =>
      rw [List.cons_append, storyPackets, ih, storyPackets, List.append_assoc]
      rfl

theorem storyPackets_concat (awaited : Option Micros) (story : List Occasion) (o : Occasion) :
    storyPackets awaited (story ++ [o]) =
      storyPackets awaited story ++ (o.packet? (storyAwaits awaited story)).toList := by
  rw [storyPackets_append]
  exact congrArg _ (List.append_nil _)

/-- A break begins the packet of what is told behind it. -/
theorem storyPackets_lineBreak {o : Occasion} (isBreak : o.IsBreak) (front behind : List Occasion) :
    storyPackets none (front ++ o :: behind) =
      storyPackets none front ++ storyPackets (some o.time) behind := by
  rw [storyPackets_append, storyPackets, Occasion.packet?_eq_none (by rw [Occasion.byte?, isBreak]),
    Occasion.awaits, isBreak]
  rfl

/-- Behind a break one packet begins at most before the next break. -/
theorem storyPackets_unbroken {behind : List Occasion} (unbroken : ∀ o ∈ behind, ¬ o.IsBreak)
    (awaited : Option Micros) :
    storyPackets awaited behind =
      (awaited.bind fun began => (startCode? behind).map fun code => (began, code)).toList := by
  induction behind generalizing awaited with
  | nil => cases awaited <;> rfl
  | cons o rest ih =>
      obtain ⟨first, others⟩ := List.forall_mem_cons.mp unbroken
      rw [storyPackets, ih others, startCode?, Occasion.awaits]
      cases cause : o.cause with
      | timeout => simp [Occasion.packet?, Occasion.byte?, cause]
      | signal signal =>
          cases signal with
          | lineBreak => exact absurd cause first
          | byte code => simp [Occasion.packet?, Occasion.byte?, cause]
          | damaged => simp [Occasion.packet?, Occasion.byte?, cause]

/-- The interval goes back to the preceding break where that began a packet. -/
theorem breakInterval_preceding {first : Occasion} {gap : List Occasion} {code : UInt8}
    (earlier : List Occasion) (isBreak : first.IsBreak) (unbroken : ∀ o ∈ gap, ¬ o.IsBreak)
    (begun : startCode? gap = some code) (began : Micros) :
    breakInterval (storyPackets none (earlier ++ first :: gap)) began =
      if code = dmxStartCode then elapsed began first.time else 0 := by
  have packets : storyPackets none (earlier ++ first :: gap) =
      storyPackets none earlier ++ [(first.time, code)] := by
    rw [storyPackets_lineBreak isBreak, storyPackets_unbroken unbroken, begun]
    rfl
  rw [packets, breakInterval, List.getLast?_concat]

theorem latestDmx?_concat (packets : List (Micros × UInt8)) (began : Micros) (code : UInt8) :
    latestDmx? (packets ++ [(began, code)]) = if code = dmxStartCode then some began else none := by
  rw [latestDmx?, List.getLast?_concat]

namespace Receiver

/-- What a receiver remembers of breaks is what the story since its reset tells of them. -/
structure Recalls (story : List Occasion) (r : Receiver) : Prop where
  wellFormed : r.WellFormed
  awaited : storyAwaits none story = if r.state = .lineBreak then some r.breakTime else none
  latest : r.lastDmxBreak = latestDmx? (storyPackets none story)
  interval : r.state = .dmxData → ∃ earlier began,
    storyPackets none story = earlier ++ [(began, dmxStartCode)] ∧
      r.breakToBreak = breakInterval earlier began

namespace Recalls

variable {r t : Receiver} {story : List Occasion} {cause : Cause} {now : Micros}
variable {frame : Option Frame}

theorem of_fresh (h : r.IsFresh) : r.Recalls [] where
  wellFormed := h.wellFormed
  awaited := by
    rw [h.state]
    rfl
  latest := h.lastDmxBreak
  interval slots := by
    rw [h.state] at slots
    cases slots

/-- What begins no packet leaves the packets of the story as they are. -/
theorem of_same (h : r.Recalls story) (wf : t.WellFormed) {o : Occasion}
    (awaited : o.awaits (storyAwaits none story) =
      if t.state = .lineBreak then some t.breakTime else none)
    (none : o.packet? (storyAwaits none story) = none) (latest : t.lastDmxBreak = r.lastDmxBreak)
    (slots : t.state = .dmxData → r.state = .dmxData) (interval : t.breakToBreak = r.breakToBreak) :
    t.Recalls (story ++ [o]) where
  wellFormed := wf
  awaited := by rw [storyAwaits_concat, awaited]
  latest := by
    rw [storyPackets_concat, none, latest, h.latest]
    exact congrArg latestDmx? (List.append_nil _).symm
  interval inSlots := by
    rw [storyPackets_concat, none, interval]
    obtain ⟨earlier, began, packets, same⟩ := h.interval (slots inSlots)
    exact ⟨earlier, began, (List.append_nil _).trans packets, same⟩

/-- A start code begins the packet of the break before it. -/
theorem startCode (h : r.Recalls story) (wf : t.WellFormed) {code : UInt8}
    (awaited : r.state = .lineBreak) (began : r.onStartCode code now = .ok t) :
    t.Recalls (story ++ [⟨.signal (.byte code), now, []⟩]) := by
  have pending := h.awaited
  rw [if_pos awaited] at pending
  have packets : storyPackets none (story ++ [⟨.signal (.byte code), now, []⟩]) =
      storyPackets none story ++ [(r.breakTime, code)] := by
    rw [storyPackets_concat, pending]
    rfl
  have settled : storyAwaits none (story ++ [⟨.signal (.byte code), now, []⟩]) = none :=
    storyAwaits_concat _ _ _
  by_cases dmx : code = dmxStartCode
  · subst dmx
    obtain ⟨counters, started⟩ := r.onStartCode_dmx now
    cases began.symm.trans started
    refine ⟨wf, settled, ?_, fun _ => ⟨_, _, packets, ?_⟩⟩
    · rw [packets, latestDmx?_concat, if_pos rfl]
    · rw [breakInterval_eq, ← h.latest]
  · have latest : latestDmx? (storyPackets none (story ++ [⟨.signal (.byte code), now, []⟩])) =
        none := by rw [packets, latestDmx?_concat, if_neg dmx]
    by_cases rdm : code = rdmStartCode
    · subst rdm
      obtain ⟨counters, started⟩ := r.onStartCode_rdm now
      cases began.symm.trans started
      exact ⟨wf, settled, latest.symm, nofun⟩
    · cases began.symm.trans (onStartCode_other now dmx rdm)
      exact ⟨wf, settled, latest.symm, nofun⟩

/-- Every response keeps what is remembered of breaks in line with the story. -/
theorem respond (h : r.Recalls story) (attended : r.attend cause now = .ok (t, frame)) :
    t.Recalls (story ++ [⟨cause, now, frame.toList⟩]) := by
  have wf : t.WellFormed := h.wellFormed.of_attend attended
  have pending := h.awaited
  cases h.wellFormed.responds attended with
  | stale => exact h.of_same wf pending (Occasion.packet?_eq_none rfl _) rfl id rfl
  | timeOut slots counters =>
      rw [if_neg (by rw [slots]; decide)] at pending
      exact h.of_same wf pending (Occasion.packet?_eq_none rfl _) rfl nofun rfl
  | lineBreak counters _ ends =>
      exact h.of_same wf rfl (Occasion.packet?_eq_none rfl _) rfl nofun rfl
  | damaged => exact h.of_same wf rfl (Occasion.packet?_eq_none rfl _) rfl nofun rfl
  | startCode awaited began => exact h.startCode wf awaited began
  | byte behind served proceeds =>
      rw [if_neg behind] at pending
      refine h.of_same wf ?_ ?_ proceeds.lastDmxBreak proceeds.slots proceeds.breakToBreak
      · rw [if_neg proceeds.behind]
        rfl
      · rw [pending]
        rfl

end Recalls

/-- Only a DMX frame under construction is published as one, with its interval. -/
theorem Responds.dmx {r t : Receiver} {cause : Cause} {now : Micros} {frame : DmxFrame}
    (h : r.Responds now cause t (some (.dmx frame))) :
    r.state = .dmxData ∧ frame.breakToBreak = r.breakToBreak := by
  cases h with
  | timeOut slots => exact ⟨slots, rfl⟩
  | lineBreak counters _ ends =>
      rcases ends with none | ⟨slots, shown⟩
      · cases none
      · cases shown
        exact ⟨slots, rfl⟩
  | byte behind served proceeds => exact proceeds.dmx frame rfl

theorem IsFresh.recalls {r t : Receiver} {story : List Occasion} (fresh : r.IsFresh)
    (follows : Follows r story t) : t.Recalls story :=
  have start : r.Recalls [] := .of_fresh fresh
  follows.preserves (fun story r => r.Recalls story) (fun _ _ _ _ _ _ recalls => recalls.respond)
    start

/-- A DMX frame that is published is what is told behind the latest break, and carries the
interval from the packet before to that break, as the story since the reset of the receiver
tells them. -/
theorem IsFresh.interval_eq {r t : Receiver} {before after : List Occasion} {o : Occasion}
    {frame : DmxFrame} (fresh : r.IsFresh) (follows : Follows r (before ++ o :: after) t)
    (shown : .dmx frame ∈ o.published) :
    ∃ front own behind, before = front ++ own :: behind ∧ own.IsBreak ∧
      (∀ p ∈ behind, ¬ p.IsBreak) ∧ startCode? behind = some dmxStartCode ∧
      frame.breakToBreak = breakInterval (storyPackets none front) own.time := by
  obtain ⟨m, told, later⟩ := follows.split
  have recalls := fresh.recalls told
  cases later with
  | @cons _ _ _ _ _ published attended same _ =>
      rw [same, Option.mem_toList] at shown
      cases shown
      obtain ⟨slots, interval⟩ := (recalls.wellFormed.responds attended).dmx
      obtain ⟨earlier, began, packets, same⟩ := recalls.interval slots
      have code := (fresh.constructs told).code slots
      rcases exists_latestBreak before with none | ⟨front, own, split, isBreak, unbroken⟩
      · rw [storyPackets_unbroken none] at packets
        exact absurd packets (by simp)
      · refine ⟨front, own, sinceBreak before, split, isBreak, unbroken, code, ?_⟩
        rw [split, storyPackets_lineBreak isBreak, storyPackets_unbroken unbroken, code] at packets
        obtain ⟨rfl, began⟩ := List.append_inj' packets rfl
        cases began
        exact interval.trans same

end Receiver

end Dmx512
