import Dmx512.Proofs.Line.History
import Dmx512.Proofs.Line.Levels

/-!
# Safety of a half-duplex line

A line has one driver at a time. `Journal.Safe` says that bytes and breaks are put
on it only by a link that drives it, and that the pin lets go of it only where
nothing is under way. `Journal.HandsBack` says of what an operation left in a journal
that it sent bytes and then let go of the line, no earlier than the interface had
told that the last of them was out.
-/

namespace Dmx512

/-- What an event asks of the history behind it: a byte or a break, that the link has
taken the direction of an output and its pin the level of one; a pin that lets go of
the line, whether it does or not, that no sequence is under way and no break is on
the line. -/
def Event.SafeBehind (earlier : Journal) : Event → Prop
  | .order (.write _) | .order (.setBreak true) =>
    earlier.direction = .output ∧ earlier.pinLevel? = some true
  | .pin false _ => earlier.phase = .idle ∧ earlier.breakAsserted = false
  | _ => True

/-- The level that the pin was to take, and whether it did. -/
def Event.pin? : Event → Option (Bool × Bool)
  | .pin high driven => some (high, driven)
  | _ => none

namespace Journal

def Safe (journal : Journal) : Prop :=
  ∀ entry earlier, entry :: earlier <:+ journal → entry.event.SafeBehind earlier

/-- The levels that the pin was to take, newest first, and whether it did. -/
def pins (journal : Journal) : List (Bool × Bool) := journal.filterMap (·.event.pin?)

/-- Entries of an operation that sends bytes by hand: the pin went low, and was told to, once
only, behind a look at the interface that found it empty, and all bytes had been
written before that look. -/
inductive HandsBack (bytes : List UInt8) : Journal → Prop where
  | intro {before after : Journal} {status : Line.Status} (looked low : Micros)
      (sent : before.written = bytes) (driven : ∀ pin ∈ before.pins, pin.1 = true)
      (empty : status.txIdle = true) (silent : after.written = []) (left : after.pins = []) :
      HandsBack bytes (after ++ ⟨low, .pin false true⟩ :: ⟨looked, .sampled status⟩ :: before)

variable {entry : Entry} {new earlier : Journal}

theorem safe_nil : Safe [] := by
  intro entry earlier suffix
  exact absurd (List.suffix_nil.mp suffix) (List.cons_ne_nil _ _)

theorem safe_cons : Safe (entry :: earlier) ↔ entry.event.SafeBehind earlier ∧ Safe earlier := by
  refine ⟨fun h => ⟨h entry earlier List.suffix_rfl, fun entry' earlier' older =>
    h entry' earlier' (older.trans (List.suffix_cons _ _))⟩, ?_⟩
  rintro ⟨first, h⟩ entry' earlier' older
  rcases List.suffix_cons_iff.mp older with same | older
  · obtain ⟨rfl, rfl⟩ := List.cons_eq_cons.mp same
    exact first
  · exact h entry' earlier' older

/-- Entries that leave the pin and the direction alone are safe on a line that is
driven, if they let go of nothing. -/
theorem Safe.append_driven (h : Safe earlier) (quiet : ∀ entry ∈ new, entry.event.IsQuiet)
    (output : earlier.levels.direction = .output) (driven : earlier.levels.pin = some true) :
    Safe (new ++ earlier) := by
  induction new with
  | nil => exact h
  | cons entry rest ih =>
      obtain ⟨first, others⟩ := List.forall_mem_cons.mp quiet
      refine safe_cons.mpr ⟨?_, ih others⟩
      have same : levels (rest ++ earlier) = levels earlier := levels_append others
      obtain ⟨time, event⟩ := entry
      cases event with
      | order order =>
          cases order with
          | write => exact ⟨(congrArg Levels.direction same).trans output,
              (congrArg Levels.pin same).trans driven⟩
          | setBreak => exact first.elim
          | allowReceive | allowTransmit | clearReceive | setAlarm | cancelAlarm => trivial
      | pin => exact first.elim
      | clockRead | sampled | heard | published | queued | turned | transmitAlarm
      | receiveAlarm => trivial

theorem pins_append (new earlier : Journal) :
    pins (new ++ earlier) = pins new ++ pins earlier :=
  List.filterMap_append

theorem pins_of_append {later : Journal} {driven : List (Bool × Bool)}
    (split : new ++ earlier = later) (moved : later.pins = driven ++ earlier.pins) :
    new.pins = driven := by
  rw [← split, pins_append] at moved
  exact List.append_cancel_right moved

theorem pins_cons (other : entry.event.pin? = none) : pins (entry :: earlier) = pins earlier :=
  List.filterMap_cons_none other

/-- Nothing that was written or told to the pin before the bytes counts. -/
theorem HandsBack.append {bytes : List UInt8} (h : HandsBack bytes new)
    (silent : earlier.written = []) (still : earlier.pins = []) :
    HandsBack bytes (new ++ earlier) := by
  obtain ⟨looked, low, sent, driven, empty, silent', left⟩ := h
  rw [List.append_assoc, List.cons_append, List.cons_append]
  refine .intro looked low ?_ ?_ empty silent' left
  · rw [written_append, silent, List.nil_append, sent]
  · rw [pins_append, still, List.append_nil]
    exact driven

/-- An operation that hands the line back has written its bytes. -/
theorem HandsBack.written_eq {bytes : List UInt8} (h : HandsBack bytes new) :
    new.written = bytes := by
  obtain ⟨looked, low, sent, _, _, silent, _⟩ := h
  rw [written_append, silent, List.append_nil]
  exact sent

end Journal

end Dmx512
