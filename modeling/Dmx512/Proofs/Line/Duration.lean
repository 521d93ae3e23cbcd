import Dmx512.Proofs.Clock
import Dmx512.Proofs.Line.History

/-!
# How long a part of a journal lasts

`Journal.duration` adds up what passed between entries in a row. It never exceeds what
passed on the clock, and it is that where the clock moves by less than its range from
entry to entry. What is told of it holds of every part that a journal contains.

`Journal.Silent` says that entries put nothing on the line, and `Journal.Carries` what is
put there by sending bytes by hand: a front part of them, behind a break and a mark that
are held long enough.
-/

namespace Dmx512

namespace Journal

variable {first last : Entry} {new mid earlier : Journal}

/-- The microseconds that passed from the oldest entry to the newest. -/
def duration : Journal → Nat
  | [] => 0
  | [_] => 0
  | newer :: older :: earlier => (elapsed newer.time older.time).toNat + duration (older :: earlier)

/-- A journal lasts as long as its two parts at any of its entries. -/
theorem duration_split (new : Journal) (entry : Entry) (earlier : Journal) :
    duration (new ++ entry :: earlier) =
      duration (new ++ [entry]) + duration (entry :: earlier) := by
  induction new with
  | nil => exact (Nat.zero_add _).symm
  | cons newest rest ih =>
      cases rest with
      | nil => simp [duration]
      | cons next rest =>
          simp only [List.cons_append, duration] at ih ⊢
          omega

theorem duration_le_append_left (new earlier : Journal) :
    duration earlier ≤ duration (new ++ earlier) := by
  cases earlier with
  | nil => exact Nat.zero_le _
  | cons entry earlier =>
      rw [duration_split]
      exact Nat.le_add_left _ _

/-- The parts of a journal last no longer than all of it. -/
theorem duration_add_le_append (new earlier : Journal) :
    duration new + duration earlier ≤ duration (new ++ earlier) := by
  induction new with
  | nil => exact Nat.le_of_eq (Nat.zero_add _)
  | cons newest rest ih =>
      cases rest with
      | nil =>
          rw [duration, Nat.zero_add]
          exact duration_le_append_left [newest] earlier
      | cons next rest =>
          simp only [List.cons_append, duration] at ih ⊢
          omega

/-- A journal lasts no shorter than its first and last entry tell. -/
theorem elapsed_le_duration (last first : Entry) (mid : Journal) :
    (elapsed last.time first.time).toNat ≤ duration (last :: (mid ++ [first])) := by
  induction mid generalizing last with
  | nil => exact Nat.le_refl _
  | cons next mid ih =>
      have rest := ih next
      have sum := elapsed_le_add last.time next.time first.time
      rw [List.cons_append, duration]
      omega

/-- Nothing is put on the line: no break is put there or taken off, and no byte is
written. -/
structure Silent (entries : Journal) : Prop where
  lineBreak : entries.Lacks .lineBreak
  byte : entries.Lacks .byte

namespace Silent

theorem nil : Silent [] := ⟨.nil _, .nil _⟩

theorem append (h : Silent new) (rest : Silent earlier) : Silent (new ++ earlier) :=
  ⟨List.forall_mem_append.mpr ⟨h.lineBreak, rest.lineBreak⟩,
    List.forall_mem_append.mpr ⟨h.byte, rest.byte⟩⟩

theorem written (h : Silent new) : new.written = [] := written_eq_nil h.byte

end Silent

/-- One break is put on the line, held for `lineBreak` and taken off again, and the line is
silent for `mark` behind it. -/
inductive BreakFramed (lineBreak mark : Nat) : Journal → Prop where
  | intro {asserted released : Micros} {ahead held marks behind : Journal}
      (quiet : ahead.Silent) (holds : held.Silent) (rests : marks.Silent)
      (once : behind.Lacks .lineBreak)
      (lasts : lineBreak ≤ duration (⟨released, .order (.setBreak false)⟩ ::
        (held ++ [⟨asserted, .order (.setBreak true)⟩])))
      (marked : mark ≤ duration (marks ++ [⟨released, .order (.setBreak false)⟩])) :
      BreakFramed lineBreak mark (behind ++ (marks ++ ⟨released, .order (.setBreak false)⟩ ::
        (held ++ ⟨asserted, .order (.setBreak true)⟩ :: ahead)))

namespace BreakFramed

variable {lineBreak mark : Nat}

theorem ahead (h : BreakFramed lineBreak mark new) (quiet : Silent earlier) :
    BreakFramed lineBreak mark (new ++ earlier) := by
  obtain ⟨silent, holds, rests, once, lasts, marked⟩ := h
  simp only [List.append_assoc, List.cons_append]
  exact .intro (silent.append quiet) holds rests once lasts marked

theorem behind (h : BreakFramed lineBreak mark earlier) (once : new.Lacks .lineBreak) :
    BreakFramed lineBreak mark (new ++ earlier) := by
  obtain ⟨silent, holds, rests, once', lasts, marked⟩ := h
  rw [← List.append_assoc]
  exact .intro silent holds rests (List.forall_mem_append.mpr ⟨once, once'⟩) lasts marked

end BreakFramed

/-- What sending `bytes` by hand puts on the line: a front part of them, and all of them where
it is `done`. Where a break is wanted, it comes first and is held for 176 us at least, and the
bytes follow no less than 68 us behind it; otherwise there is none. -/
structure Carries (bytes : List UInt8) (withBreak : Bool) (done : Prop) (new : Journal) :
    Prop where
  front : new.written <+: bytes
  whole : done → new.written = bytes
  broken : withBreak = true → new.BreakFramed 176 68
  bare : withBreak = false → new.Lacks .lineBreak

namespace Carries

variable {bytes : List UInt8} {withBreak : Bool} {done : Prop}

/-- Nothing was put on the line yet. -/
theorem of_silent (h : Silent new) (undone : done → bytes = []) :
    Carries bytes false done new where
  front := h.written ▸ List.nil_prefix
  whole is := h.written.trans (undone is).symm
  broken wanted := absurd wanted Bool.false_ne_true
  bare _ := h.lineBreak

theorem mono {done' : Prop} (h : Carries bytes withBreak done new) (imp : done' → done) :
    Carries bytes withBreak done' new :=
  { h with whole := fun is => h.whole (imp is) }

theorem ahead (h : Carries bytes withBreak done new) (quiet : Silent earlier) :
    Carries bytes withBreak done (new ++ earlier) := by
  have same : written (new ++ earlier) = written new := by
    rw [written_append, quiet.written, List.nil_append]
  refine ⟨same ▸ h.front, fun is => same.trans (h.whole is),
    fun wanted => (h.broken wanted).ahead quiet, fun unwanted => ?_⟩
  exact List.forall_mem_append.mpr ⟨h.bare unwanted, quiet.lineBreak⟩

theorem behind (h : Carries bytes withBreak done earlier) (quiet : Silent new) :
    Carries bytes withBreak done (new ++ earlier) := by
  have same : written (new ++ earlier) = written earlier := by
    rw [written_append, quiet.written, List.append_nil]
  refine ⟨same ▸ h.front, fun is => same.trans (h.whole is),
    fun wanted => (h.broken wanted).behind quiet.lineBreak, fun unwanted => ?_⟩
  exact List.forall_mem_append.mpr ⟨quiet.lineBreak, h.bare unwanted⟩

/-- A byte is put on the line ahead of the others. -/
theorem write (h : Carries bytes false done new) (time : Micros) (byte : UInt8)
    (quiet : Silent earlier) :
    Carries (byte :: bytes) false done (new ++ ⟨time, .order (.write byte)⟩ :: earlier) := by
  have first : written (new ++ ⟨time, .order (.write byte)⟩ :: earlier) = byte :: written new := by
    rw [written_append, written, quiet.written]
    rfl
  refine ⟨first ▸ List.cons_prefix_cons.mpr ⟨rfl, h.front⟩, fun is => ?_,
    fun wanted => absurd wanted Bool.false_ne_true, fun _ => ?_⟩
  · rw [first, h.whole is]
  · exact List.forall_mem_append.mpr ⟨h.bare rfl, quiet.lineBreak.cons (by simp [Event.topic])⟩

/-- Bytes are put on the line behind a break. -/
theorem frame (h : Carries bytes false done new) (framed : BreakFramed 176 68 earlier)
    (unwritten : written earlier = []) : Carries bytes true done (new ++ earlier) := by
  have same : written (new ++ earlier) = written new := by
    rw [written_append, unwritten, List.nil_append]
  exact ⟨same ▸ h.front, fun is => same.trans (h.whole is),
    fun _ => framed.behind (h.bare rfl), fun unwanted => absurd unwanted.symm Bool.false_ne_true⟩

end Carries

end Journal

end Dmx512
