import Dmx512.Proofs.Line.History
import Mathlib.Data.List.Induction

/-!
# What a journal tells of packets

A receiver is told signals, and that it is stopped. A packet is counted where the next thing
that it is told behind a break is a byte without error: the start code. The journal tells which
start codes were counted and which frames were completed, so it tells as well whether a start
code that was counted still waits for its frame.
-/

namespace Dmx512

open Standard

/-- What an event tells a receiver: a signal or, as `none`, that it is stopped. -/
def Event.tells? : Event → Option (Option Signal)
  | .heard signal => some (some signal)
  | .order (.allowReceive false) => some none
  | _ => none

/-- The breaks of a story behind which the next thing told is the start code. -/
def countPackets (code : UInt8) : List (Option Signal) → Nat
  | [] => 0
  | told :: rest => countPackets code rest +
    if told = some .lineBreak ∧ rest.head? = some (some (.byte code)) then 1 else 0

/-- What is told last is counted where it is the start code and a break came before it. -/
theorem countPackets_concat (code : UInt8) (story : List (Option Signal)) (last : Option Signal) :
    countPackets code (story ++ [last]) = countPackets code story +
      if story.getLast? = some (some .lineBreak) ∧ last = some (.byte code) then 1 else 0 := by
  induction story with
  | nil => simp [countPackets]
  | cons told rest ih =>
      cases rest with
      | nil => simp [countPackets]
      | cons next others =>
          have first : (next :: others ++ [last]).head? = (next :: others).head? := rfl
          rw [List.cons_append, countPackets, ih, first, List.getLast?_cons_cons,
            Nat.add_right_comm]
          rfl

/-- The start code that a frame began with. A discovery response began with none. -/
def Frame.startCode? : Frame → Option UInt8
  | .dmx _ => some dmxStartCode
  | .rdm frame =>
    match frame.kind with
    | .message => some rdmStartCode
    | .discoveryResponse => none

namespace Journal

/-- What a receiver was told, oldest first. -/
def told (journal : Journal) : List (Option Signal) := journal.reverse.filterMap (·.event.tells?)

def packets (code : UInt8) (journal : Journal) : Nat := countPackets code journal.told

/-- A break was told last: a start code that comes now is counted. -/
abbrev AwaitsCode (journal : Journal) : Prop := journal.told.getLast? = some (some .lineBreak)

/-- The start code counted last is `code`, and no frame that began with a start code was
completed since. -/
def Opened (code : UInt8) (journal : Journal) : Prop :=
  ∃ (behind : Journal) (own : Entry) (before : Journal), journal = behind ++ own :: before ∧
    own.event = .heard (.byte code) ∧ before.AwaitsCode ∧
    (∀ other, journal.packets other = packets other (own :: before)) ∧
    ∀ entry ∈ behind, ∀ frame, entry.event = .published frame → frame.startCode? = none

/-- The bytes told last are `data`, and none of them was counted. -/
def EndsUncounted (data : List UInt8) (journal : Journal) : Prop :=
  ∃ before, journal.told = before ++ data.map (fun byte => some (.byte byte)) ∧
    ∀ code, journal.packets code = countPackets code before

/-- What has to be told for a frame to be completed. One that began with a start code was
counted, by the start code counted last, and is the first that this one leads to; a discovery
response is made of the bytes told last, none of which was counted. -/
def Accounts (frame : Frame) (journal : Journal) : Prop :=
  match frame with
  | .dmx _ => journal.Opened dmxStartCode
  | .rdm frame =>
    match frame.kind with
    | .message => journal.Opened rdmStartCode
    | .discoveryResponse => journal.EndsUncounted frame.data

variable {code : UInt8} {data : List UInt8} {entry : Entry} {new earlier journal : Journal}

theorem told_cons (silent : entry.event.tells? = none) :
    told (entry :: earlier) = told earlier := by
  rw [told, List.reverse_cons, List.filterMap_append]
  simp [silent, told]

theorem told_heard (time : Micros) (signal : Signal) (earlier : Journal) :
    told (⟨time, .heard signal⟩ :: earlier) = told earlier ++ [some signal] := by
  rw [told, List.reverse_cons, List.filterMap_append]
  rfl

theorem told_stopped (time : Micros) (earlier : Journal) :
    told (⟨time, .order (.allowReceive false)⟩ :: earlier) = told earlier ++ [none] := by
  rw [told, List.reverse_cons, List.filterMap_append]
  rfl

theorem packets_cons (silent : entry.event.tells? = none) (code : UInt8) :
    packets code (entry :: earlier) = packets code earlier := by
  rw [packets, told_cons silent, packets]

theorem packets_heard (time : Micros) (signal : Signal) (code : UInt8) :
    packets code (⟨time, .heard signal⟩ :: earlier) = packets code earlier +
      if earlier.AwaitsCode ∧ signal = .byte code then 1 else 0 := by
  rw [packets, told_heard, countPackets_concat, packets]
  simp only [Option.some_inj]

theorem packets_stopped (time : Micros) (code : UInt8) :
    packets code (⟨time, .order (.allowReceive false)⟩ :: earlier) = packets code earlier := by
  rw [packets, told_stopped, countPackets_concat, packets]
  simp

/-- Without a break before it, no signal is counted. -/
theorem packets_unawaited (unawaited : ¬ earlier.AwaitsCode) (time : Micros) (signal : Signal)
    (code : UInt8) : packets code (⟨time, .heard signal⟩ :: earlier) = packets code earlier := by
  rw [packets_heard, if_neg fun h => unawaited h.1, Nat.add_zero]

theorem awaitsCode_heard (time : Micros) (signal : Signal) (earlier : Journal) :
    AwaitsCode (⟨time, .heard signal⟩ :: earlier) ↔ signal = .lineBreak := by
  rw [AwaitsCode, told_heard, List.getLast?_concat, Option.some_inj, Option.some_inj]

theorem awaitsCode_stopped (time : Micros) (earlier : Journal) :
    ¬ AwaitsCode (⟨time, .order (.allowReceive false)⟩ :: earlier) := by
  rw [AwaitsCode, told_stopped, List.getLast?_concat]
  simp

/-- The packets that were counted by some time stay counted. -/
theorem packets_le (new earlier : Journal) (code : UInt8) :
    packets code earlier ≤ packets code (new ++ earlier) := by
  have grows (story : List (Option Signal)) :
      countPackets code earlier.told ≤ countPackets code (earlier.told ++ story) := by
    induction story using List.reverseRecOn with
    | nil => exact Nat.le_of_eq (congrArg _ (List.append_nil _).symm)
    | append_singleton story last ih =>
        rw [← List.append_assoc, countPackets_concat]
        exact Nat.le_add_right_of_le ih
  have split : told (new ++ earlier) = told earlier ++ told new := by
    rw [told, List.reverse_append, List.filterMap_append, told, told]
  rw [packets, packets, split]
  exact grows _

theorem Opened.of_heard (awaits : earlier.AwaitsCode) (time : Micros) :
    Opened code (⟨time, .heard (.byte code)⟩ :: earlier) :=
  ⟨[], _, earlier, rfl, rfl, awaits, fun _ => rfl, nofun⟩

/-- What counts no packet and completes no frame leaves a start code open. -/
theorem Opened.cons (h : earlier.Opened code)
    (uncounted : ∀ other, packets other (entry :: earlier) = packets other earlier)
    (incomplete : ∀ frame, entry.event = .published frame → frame.startCode? = none) :
    Opened code (entry :: earlier) := by
  obtain ⟨behind, own, before, rfl, began, awaits, latest, silent⟩ := h
  refine ⟨entry :: behind, own, before, rfl, began, awaits, fun other => ?_, ?_⟩
  · rw [uncounted, latest]
  · exact List.forall_mem_cons.mpr ⟨incomplete, silent⟩

theorem EndsUncounted.cons (h : earlier.EndsUncounted data)
    (silent : entry.event.tells? = none) : EndsUncounted data (entry :: earlier) := by
  obtain ⟨before, told, uncounted⟩ := h
  exact ⟨before, (told_cons silent).trans told, fun code =>
    (packets_cons silent code).trans (uncounted code)⟩

/-- A discovery response goes on with a byte that is not counted. -/
theorem EndsUncounted.heard (h : earlier.EndsUncounted data) (unawaited : ¬ earlier.AwaitsCode)
    (time : Micros) (byte : UInt8) :
    EndsUncounted (data ++ [byte]) (⟨time, .heard (.byte byte)⟩ :: earlier) := by
  obtain ⟨before, told, uncounted⟩ := h
  refine ⟨before, ?_, fun code => (packets_unawaited unawaited time _ code).trans (uncounted code)⟩
  rw [told_heard, told, List.map_append, List.append_assoc, List.map_singleton]

theorem endsUncounted_nil (journal : Journal) : journal.EndsUncounted [] :=
  ⟨journal.told, (List.append_nil _).symm, fun _ => rfl⟩

/-- Whatever was heard, bytes were received then, and whenever a frame was completed, it was
accounted for. -/
def Accounted (journal : Journal) : Prop :=
  ∀ (later : Journal) (entry : Entry) (earlier : Journal), journal = later ++ entry :: earlier →
    (∀ signal, entry.event = .heard signal → earlier.receiveAllowed = true) ∧
      ∀ frame, entry.event = .published frame → earlier.Accounts frame

theorem accounted_nil : Accounted [] := by
  intro later entry earlier split
  simp at split

theorem Accounted.cons (h : earlier.Accounted)
    (receives : ∀ signal, entry.event = .heard signal → earlier.receiveAllowed = true)
    (accounts : ∀ frame, entry.event = .published frame → earlier.Accounts frame) :
    Accounted (entry :: earlier) := by
  intro later other before split
  cases later with
  | nil =>
      obtain ⟨rfl, rfl⟩ := List.cons.inj split
      exact ⟨receives, accounts⟩
  | cons first others =>
      obtain ⟨rfl, rfl⟩ := List.cons.inj split
      exact h others other before rfl

end Journal

end Dmx512
