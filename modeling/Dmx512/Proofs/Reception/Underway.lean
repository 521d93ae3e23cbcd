import Mathlib.Data.List.DropRight
import Dmx512.Proofs.Reception.Completion
import Dmx512.Proofs.Reception.Progress

/-!
# The frame under construction

Whatever a receiver has lived through since it was reset, the DMX frame that it is
constructing is what arrived behind the latest break: `sinceBreak` takes that part of a story,
`startCode?` is the start code that it begins with, and `Fills` says how the receiver holds it.
-/

namespace Dmx512

open Standard

/-- What a story tells behind its latest break. -/
def sinceBreak (story : List Occasion) : List Occasion :=
  story.rtakeWhile fun o => decide (o.cause ≠ .signal .lineBreak)

theorem sinceBreak_lineBreak (story : List Occasion) {o : Occasion}
    (isBreak : o.cause = .signal .lineBreak) : sinceBreak (story ++ [o]) = [] :=
  List.rtakeWhile_concat_neg _ _ _ (by simpa using isBreak)

theorem sinceBreak_concat (story : List Occasion) {o : Occasion}
    (other : o.cause ≠ .signal .lineBreak) : sinceBreak (story ++ [o]) = sinceBreak story ++ [o] :=
  List.rtakeWhile_concat_pos _ _ _ (by simpa using other)

/-- A story ends with its latest break and what it tells behind that, unless it tells of no
break. -/
theorem exists_latestBreak (story : List Occasion) :
    (∀ o ∈ story, ¬ o.IsBreak) ∨ ∃ front own, story = front ++ own :: sinceBreak story ∧
      own.IsBreak ∧ ∀ o ∈ sinceBreak story, ¬ o.IsBreak := by
  induction story using List.reverseRecOn with
  | nil => exact .inl nofun
  | append_singleton story o ih =>
      by_cases isBreak : o.cause = .signal .lineBreak
      · rw [sinceBreak_lineBreak story isBreak]
        exact .inr ⟨story, o, rfl, isBreak, nofun⟩
      · have last : ∀ p ∈ [o], ¬ p.IsBreak := List.forall_mem_singleton.mpr isBreak
        rw [sinceBreak_concat story isBreak]
        rcases ih with none | ⟨front, own, split, begins, unbroken⟩
        · exact .inl (List.forall_mem_append.mpr ⟨none, last⟩)
        · refine .inr ⟨front, own, ?_, begins, List.forall_mem_append.mpr ⟨unbroken, last⟩⟩
          rw [← List.cons_append, ← List.append_assoc, ← split]

/-- The start code behind a break is the next thing to be told, if that is a byte without
error. -/
def startCode? : List Occasion → Option UInt8
  | [] => none
  | o :: rest =>
    match o.cause with
    | .timeout => startCode? rest
    | .signal (.byte code) => some code
    | .signal _ => none

/-- What is told later leaves the start code as it is. -/
theorem startCode?_append {behind : List Occasion} {code : UInt8}
    (begun : startCode? behind = some code) (more : List Occasion) :
    startCode? (behind ++ more) = some code := by
  induction behind with
  | nil => cases begun
  | cons o rest ih =>
      rw [List.cons_append, startCode?]
      rw [startCode?] at begun
      split at begun
      · exact ih begun
      · exact begun
      · cases begun

/-- Timeouts come before the start code without a trace. -/
theorem startCode?_timeouts {behind : List Occasion}
    (timeouts : ∀ o ∈ behind, o.cause = .timeout) (code : UInt8) (now : Micros) :
    startCode? (behind ++ [⟨.signal (.byte code), now, []⟩]) = some code := by
  induction behind with
  | nil => rfl
  | cons o rest ih =>
      obtain ⟨first, others⟩ := List.forall_mem_cons.mp timeouts
      rw [List.cons_append, startCode?, first]
      exact ih others

theorem storyArrivals_timeouts {behind : List Occasion}
    (timeouts : ∀ o ∈ behind, o.cause = .timeout) : storyArrivals behind = [] := by
  induction behind with
  | nil => rfl
  | cons o rest ih =>
      obtain ⟨first, others⟩ := List.forall_mem_cons.mp timeouts
      rw [storyArrivals_timeout first, ih others]

namespace Receiver

/-- The first arrival is the code of dimmer data. -/
theorem Fills.head? {r : Receiver} {arrivals : List Arrival} (h : r.Fills arrivals) :
    (arrivals.map Prod.fst).head? = some dmxStartCode := by
  obtain ⟨low, _, code⟩ := h.wellFormed.holds h.state
  rw [← h.bytes, List.head?_eq_getElem?, dmxBytes, Buffer.getElem?_take _ low (by decide), code]

/-- The DMX frame that a receiver is constructing is what arrived behind the latest break of
the story since its reset. -/
structure Constructs (story : List Occasion) (r : Receiver) : Prop where
  wellFormed : r.WellFormed
  awaited : r.state = .lineBreak → ∀ o ∈ sinceBreak story, o.cause = .timeout
  code : r.state = .dmxData → startCode? (sinceBreak story) = some dmxStartCode
  slots : r.state = .dmxData → r.Fills (storyArrivals (sinceBreak story))

namespace Constructs

variable {r t : Receiver} {story : List Occasion} {cause : Cause} {now : Micros}
variable {frame : Option Frame}

theorem of_fresh (h : r.IsFresh) : r.Constructs [] where
  wellFormed := h.wellFormed
  awaited _ := nofun
  code slots := by
    rw [h.state] at slots
    cases slots
  slots slots := by
    rw [h.state] at slots
    cases slots

/-- Without a frame under construction there is nothing to say. -/
theorem of_other (wf : t.WellFormed) (awaited : t.state ≠ .lineBreak)
    (slots : t.state ≠ .dmxData) : t.Constructs story :=
  ⟨wf, fun same => absurd same awaited, fun same => absurd same slots,
    fun same => absurd same slots⟩

theorem startCode (h : r.Constructs story) {code : UInt8} (awaited : r.state = .lineBreak)
    (began : r.onStartCode code now = .ok t) (wf : t.WellFormed) :
    t.Constructs (story ++ [⟨.signal (.byte code), now, []⟩]) := by
  by_cases dmx : code = dmxStartCode
  · subst dmx
    have arrivals : storyArrivals (sinceBreak (story ++ [⟨.signal (.byte dmxStartCode), now, []⟩]))
        = [(dmxStartCode, now)] := by
      rw [sinceBreak_concat _ (by simp), storyArrivals_append,
        storyArrivals_timeouts (h.awaited awaited)]
      rfl
    obtain ⟨u, attended, fills⟩ := Fills.of_startCode h.wellFormed awaited now
    simp only [attend, hear, onByte, awaited, began] at attended
    cases attended
    refine ⟨wf, fun broken => ?_, fun _ => ?_, fun _ => arrivals ▸ fills⟩
    · exact absurd (fills.state.symm.trans broken) (by decide)
    · rw [sinceBreak_concat _ (by simp)]
      exact startCode?_timeouts (h.awaited awaited) dmxStartCode now
  · by_cases rdm : code = rdmStartCode
    · subst rdm
      obtain ⟨counters, started⟩ := r.onStartCode_rdm now
      cases began.symm.trans started
      exact of_other wf (by simp) (by simp)
    · cases began.symm.trans (onStartCode_other now dmx rdm)
      exact of_other wf (by simp) (by simp)

/-- A slot joins the frame, or is its last one. -/
theorem slot (h : r.Constructs story) (slots : r.state = .dmxData) {value : UInt8}
    (attended : r.attend (.signal (.byte value)) now = .ok (t, frame)) (wf : t.WellFormed) :
    t.Constructs (story ++ [⟨.signal (.byte value), now, frame.toList⟩]) := by
  have fills := h.slots slots
  have arrivals : storyArrivals (sinceBreak (story ++ [⟨.signal (.byte value), now, frame.toList⟩]))
      = storyArrivals (sinceBreak story) ++ [(value, now)] := by
    rw [sinceBreak_concat _ (by simp), storyArrivals_append]
    rfl
  obtain ⟨_, high, _⟩ := h.wellFormed.holds slots
  rw [fills.index_eq] at high
  rcases Nat.lt_or_eq_of_le high with more | last
  · obtain ⟨u, joined, fills'⟩ := fills.slot value now more
    cases attended.symm.trans joined
    refine ⟨wf, fun broken => ?_, fun _ => ?_, fun _ => arrivals ▸ fills'⟩
    · exact absurd (fills'.state.symm.trans broken) (by decide)
    · rw [sinceBreak_concat _ (by simp)]
      exact startCode?_append (h.code slots) _
  · obtain ⟨u, published, ended, idle, _⟩ := fills.lastSlot value now last
    cases attended.symm.trans ended
    exact of_other wf (by rw [idle]; decide) (by rw [idle]; decide)

theorem respond (h : r.Constructs story) (attended : r.attend cause now = .ok (t, frame)) :
    t.Constructs (story ++ [⟨cause, now, frame.toList⟩]) := by
  have wf : t.WellFormed := h.wellFormed.of_attend attended
  cases h.wellFormed.responds attended with
  | stale =>
      have later : sinceBreak (story ++ [⟨.timeout, now, []⟩]) =
          sinceBreak story ++ [⟨.timeout, now, []⟩] := sinceBreak_concat _ (by simp)
      have same : storyArrivals (sinceBreak (story ++ [⟨.timeout, now, []⟩])) =
          storyArrivals (sinceBreak story) := by
        rw [later, storyArrivals_append]
        exact List.append_nil _
      refine ⟨wf, fun awaited => ?_, fun slots => ?_, fun slots => same ▸ h.slots slots⟩
      · rw [Option.toList, later]
        exact List.forall_mem_append.mpr ⟨h.awaited awaited, List.forall_mem_singleton.mpr rfl⟩
      · rw [Option.toList, later]
        exact startCode?_append (h.code slots) _
  | timeOut | damaged => exact of_other wf nofun nofun
  | lineBreak =>
      refine ⟨wf, fun _ => ?_, nofun, nofun⟩
      rw [sinceBreak_lineBreak story rfl]
      exact nofun
  | startCode awaited began => exact h.startCode awaited began wf
  | byte behind served proceeds =>
      -- Only in a frame of slots does a byte lead to one, as no start code is awaited.
      by_cases slots : r.state = .dmxData
      · exact h.slot slots attended wf
      · exact of_other wf proceeds.behind fun inSlots => slots (proceeds.slots inSlots)

end Constructs

/-- What a receiver constructs is told by the story since its reset. -/
theorem IsFresh.constructs {r t : Receiver} {story : List Occasion} (fresh : r.IsFresh)
    (follows : Follows r story t) : t.Constructs story :=
  have start : r.Constructs [] := .of_fresh fresh
  follows.preserves (fun story r => r.Constructs story)
    (fun _ _ _ _ _ _ constructs => constructs.respond) start

end Receiver

end Dmx512
