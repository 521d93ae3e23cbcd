import Dmx512.Proofs.Reception.Delivery
import Dmx512.Proofs.Reception.Ending
import Dmx512.Proofs.Reception.Scanning

/-!
# The course of a capture

Until a preamble byte comes, nothing changes an idle receiver. From then on it gathers every
byte, whatever its value, and publishes nothing before the capture is whole; its last byte
publishes all of it, and the receiver is idle again. A break or a damaged byte before that
drops what was gathered.
-/

namespace Dmx512

open Standard Discovery

namespace Receiver

variable {r t : Receiver} {part : List Occasion} {captured bytes : List UInt8} {o : Occasion}

/-- Bytes that begin no preamble do not change an idle receiver. -/
theorem ignores (state : r.state = .idle) (brings : Brings part bytes)
    (lacks : preambleByte ∉ bytes) (follows : Follows r part t) :
    t = r ∧ storyFrames part = [] := by
  induction brings with
  | nil =>
      cases follows
      exact ⟨rfl, rfl⟩
  | timeout served _ ih =>
      obtain ⟨silent, later⟩ := follows.timeout (by rw [state]; decide) served
      rw [storyFrames_cons, silent]
      exact ih lacks later
  | byte arrives _ ih =>
      obtain ⟨other, rest⟩ := List.ne_and_not_mem_of_not_mem_cons lacks
      cases follows with
      | cons now published later =>
          rw [arrives, Scans.attend_ignored state other.symm] at now
          cases now
          rw [storyFrames_cons, published]
          exact ih rest later

/-- A capture that has begun takes every byte, and publishes nothing before it is whole. -/
theorem Scans.gathers {front : List UInt8} (brings : Brings part bytes) (h : r.Scans front)
    (wf : r.WellFormed) (begins : front ≠ [] ∨ bytes.head? = some preambleByte)
    (short : (front ++ bytes).length < captureLength (front ++ bytes))
    (follows : Follows r part t) : storyFrames part = [] ∧ t.Scans (front ++ bytes) := by
  induction brings generalizing r front with
  | nil =>
      cases follows
      rw [List.append_nil]
      exact ⟨rfl, h⟩
  | timeout served _ ih =>
      obtain ⟨silent, later⟩ := follows.timeout h.state_ne_dmxData served
      rw [storyFrames_cons, silent]
      exact ih h wf begins short later
  | @byte o _ value rest arrives _ ih =>
      have parts : front ++ value :: rest = front ++ [value] ++ rest := by simp
      rw [parts] at short ⊢
      -- A part of a capture that is not whole is not whole either.
      have goesOn : ¬ IsWhole (front ++ [value]) := by
        refine Nat.ne_of_lt ?_
        cases rest with
        | nil => rwa [List.append_nil] at short
        | cons next others => exact lt_captureLength (Nat.le_of_lt short) (List.cons_ne_nil _ _)
      obtain ⟨m, wf', later, scans⟩ := h.follows_byte wf arrives follows
      rw [capture_of_begins begins, if_neg goesOn] at scans
      obtain ⟨silent, scans⟩ := scans
      rw [storyFrames_cons, silent]
      exact ih scans wf' (.inl (by simp)) short later

/-- A break or a damaged byte drops what has been captured. -/
theorem Scans.discards (h : r.Scans captured) (ends : o.IsBreak ∨ o.cause = .signal .damaged)
    (follows : Follows r [o] t) : o.published = [] ∧
      (o.IsBreak → t.state = .lineBreak) ∧ (o.cause = .signal .damaged → t.state = .idle) := by
  rcases ends with isBreak | damaged
  · refine ⟨published_of_lineBreak h.state_ne_dmxData isBreak follows, fun _ => ?_, fun other => ?_⟩
    · cases follows with
      | cons now _ later =>
          rw [isBreak] at now
          cases later
          exact (onBreak_ok now).1
    · cases isBreak.symm.trans other
  · cases follows with
    | cons now published later =>
        rw [damaged] at now
        cases now
        cases later
        refine ⟨published, fun isBreak => ?_, fun _ => rfl⟩
        cases isBreak.symm.trans damaged

/-- An RDM frame ends with the signal that publishes it. -/
theorem Follows.rdmReceiveEnd {signal : Signal} {frame : RdmFrame} (follows : Follows r [o] t)
    (arrives : o.cause = .signal signal) (published : o.published = [.rdm frame]) :
    t.counters.rdmReceiveEnd = o.time := by
  cases follows with
  | @cons _ _ _ _ _ shown now same later =>
      cases later
      rw [arrives] at now
      have dated := dates_hear signal _ _ now
      obtain rfl : shown = some (.rdm frame) :=
        Option.toList_eq_singleton_iff.mp (same.symm.trans published)
      exact dated

/-- Of bytes that begin with a preamble byte, an idle receiver publishes as many as a capture
takes, with the last of them. -/
theorem capture_published (wf : r.WellFormed) (state : r.state = .idle)
    (brings : Brings part bytes) (first : bytes.head? = some preambleByte)
    (enough : captureLength bytes ≤ bytes.length) (follows : Follows r part t) :
    ∃ front last rest u, part = front ++ last :: rest ∧
      Brings (front ++ [last]) (bytes.take (captureLength bytes)) ∧ last.byte?.isSome ∧
      storyFrames front = [] ∧
      last.published = [.rdm { data := bytes.take (captureLength bytes) }] ∧
      Follows r (front ++ [last]) u ∧ Follows u rest t ∧ u.state = .idle ∧
      u.counters.rdmReceiveEnd = last.time := by
  have whole := isWhole_take enough
  have parts := List.take_append_drop (captureLength bytes) bytes
  generalize bytes.take (captureLength bytes) = captured at whole parts ⊢
  rcases List.eq_nil_or_concat captured with rfl | ⟨gathered, value, rfl⟩
  · exact absurd whole (by decide)
  rw [List.concat_eq_append] at whole parts ⊢
  rw [← parts, List.append_assoc] at brings
  obtain ⟨front, last, rest, rfl, before, arrives, _⟩ := brings.exists_byte
  have begun : gathered ≠ [] := by
    rintro rfl
    have one : 1 = captureLength [value] := whole
    exact absurd (captureLength_bounds [value]).1 (by rw [← one]; decide)
  have head : gathered.head? = some preambleByte := by
    rwa [← parts, List.append_assoc, List.head?_append_of_ne_nil _ begun] at first
  have short : gathered.length < captureLength gathered :=
    lt_captureLength (Nat.le_of_eq whole) (List.cons_ne_nil value [])
  obtain ⟨m, early, late⟩ := follows.split
  obtain ⟨silent, scans⟩ := Scans.gathers before (.idle state rfl) wf (.inr head) short early
  obtain ⟨u, atLast, later⟩ := Follows.split (show m.Follows ([last] ++ rest) t from late)
  obtain ⟨_, wf', none, completes⟩ := scans.follows_byte (wf.follows early) arrives atLast
  cases none
  rw [List.nil_append, capture_of_begins (.inl begun : _ ∨ [value].head? = _), if_pos whole]
    at completes
  obtain ⟨published, scans'⟩ := completes
  exact ⟨front, last, rest, u, rfl, before.append (.byte arrives .nil),
    by simp [Occasion.byte?, arrives], silent, published, early.append atLast, later,
    scans'.state_of_nil wf', atLast.rdmReceiveEnd arrives published⟩

end Receiver

end Dmx512
