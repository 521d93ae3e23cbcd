import Dmx512.Link.Interrupt
import Dmx512.Proofs.Act.Pairs
import Dmx512.Proofs.Line.Twins
import Dmx512.Proofs.Link.Spec
import Dmx512.Proofs.Reception.Ahead
import Dmx512.Proofs.Reception.Ending
import Dmx512.Proofs.Transmission.Ahead

/-!
# Links on twin hardware

Two links on twin hardware stand side by side if all that they keep is the same, apart from
instants, which are ahead in the second one by the offset of the twins. `Link.Beside` says so
for a standing, the direction of both lines and whether their sequencers run. Whether a link
listens follows from its standing, except while its sequencer is being started or stopped.

Each act of a link keeps two links side by side and gives both the same answer, or stops both.
The end of the latest RDM frame is ahead once such a frame was published, and 0 on both before.
-/

namespace Dmx512

open Act Standard

/-- The counters with the end of the latest RDM frame at a later time. -/
def Counters.later (shift : Micros) (counters : Counters) : Counters :=
  { counters with rdmReceiveEnd := counters.rdmReceiveEnd + shift }

@[simp] theorem Counters.later_zero (counters : Counters) : counters.later 0 = counters := by
  simp [Counters.later]

/-- The direction of a line and whether its sequencer runs. -/
abbrev Standing := Direction × Bool

def Standing.listens (standing : Standing) : Bool := standing == (.input, true)

/-- Two engines of the same standing are the same, apart from the instants they keep. -/
structure Engine.Beside (offset : Micros) (standing : Standing) (e e' : Engine) : Prop where
  receiver : e.receiver.Ahead offset e'.receiver
  transmitter : e.transmitter.Ahead offset e'.transmitter
  direction : e.direction = standing.1
  running : e.running = standing.2
  same : e'.direction = e.direction ∧ e'.running = e.running ∧ e'.attached = e.attached
  watchdog : e'.watchdog = e.watchdog.map (· + offset)
  wellFormed : e.receiver.WellFormed
  /-- Without a sequencer that sends, the transmitter rests. -/
  rests : standing ≠ (.output, true) → e.transmitter.state = .idle

namespace Engine.Beside

variable {offset : Micros} {standing : Standing} {e e' : Engine}

theorem receiving (h : e.Beside offset standing e') :
    e.receiving = standing.listens ∧ e'.receiving = standing.listens := by
  have first : e.receiving = standing.listens := by
    rw [Engine.receiving, h.direction, h.running, Standing.listens]
    obtain ⟨direction, running⟩ := standing
    cases direction <;> cases running <;> rfl
  refine ⟨first, ?_⟩
  rw [Engine.receiving, h.same.1, h.same.2.1]
  exact first

theorem sending (h : e.Beside offset standing e') :
    e.sending = decide (standing = (.output, true)) ∧ e'.sending = e.sending := by
  constructor
  · rw [Engine.sending, h.direction, h.running]
    obtain ⟨direction, running⟩ := standing
    cases direction <;> cases running <;> rfl
  · rw [Engine.sending, Engine.sending, h.same.1, h.same.2.1]

/-- Engines of which none is ahead differ at most in when the latest RDM frame ended. -/
theorem eq_of_zero (h : e.Beside 0 standing e') (ending :
    e'.receiver.counters.rdmReceiveEnd = e.receiver.counters.rdmReceiveEnd) : e' = e := by
  have watchdog : e'.watchdog = e.watchdog := by
    rw [h.watchdog]
    cases e.watchdog <;> simp
  obtain ⟨direction, running, attached⟩ := h.same
  have receiver := h.receiver.eq_of_zero ending
  have transmitter := h.transmitter.eq_of_zero
  obtain ⟨⟩ := e'
  cases receiver
  cases transmitter
  cases direction
  cases running
  cases attached
  cases watchdog
  rfl

end Engine.Beside

namespace Link

variable {H : Type} [Hardware H] {d r : Nat}

/-- Two links of the same standing are side by side on twin hardware. -/
structure Beside (twins : Twins H) (listening : Bool) (standing : Standing) (s s' : Link H d r) :
    Prop where
  hardware : twins.alike listening s.line.hardware s'.line.hardware
  journal : s.line.journal.Ahead twins.offset s'.line.journal
  engine : s.cell.value.Beside twins.offset standing s'.cell.value
  ending : s'.cell.value.receiver.counters.rdmReceiveEnd =
    s.cell.value.receiver.counters.rdmReceiveEnd + s.line.journal.dating twins.offset
  uses : s'.uses = s.uses
  dmxStore : s'.dmxStore = s.dmxStore
  rdmStore : s'.rdmStore = s.rdmStore

variable {twins : Twins H} {listening : Bool} {standing : Standing} {s s' : Link H d r}

theorem Beside.now (h : s.Beside twins listening standing s') :
    s'.line.now = s.line.now + twins.offset :=
  twins.clocks (twins.alike_false h.hardware)

theorem Beside.deafen (h : s.Beside twins listening standing s') :
    s.Beside twins false standing s' :=
  { h with hardware := twins.alike_false h.hardware }

/-- Links that are side by side have counted and measured the same. -/
theorem Beside.counters (h : s.Beside twins listening standing s') :
    s'.counters = s.counters.later (s.line.journal.dating twins.offset) := by
  have counters := h.engine.receiver.counters
  rw [h.ending] at counters
  have overruns := h.engine.transmitter.overruns
  rw [Link.counters, Link.engine, counters, overruns]
  rfl

/-- The lines of both may be replaced, if no RDM frame is published meanwhile. -/
theorem Beside.withLine (h : s.Beside twins listening standing s') {listening' : Bool}
    {line line' : Line H} (hardware : twins.alike listening' line.hardware line'.hardware)
    (journal : line.journal.Ahead twins.offset line'.journal)
    (undated : line.journal.rdmEnd? = s.line.journal.rdmEnd?) :
    Beside twins listening' standing { s with line } { s' with line := line' } where
  hardware := hardware
  journal := journal
  engine := h.engine
  ending := by
    rw [Journal.dating, undated]
    exact h.ending
  uses := h.uses
  dmxStore := h.dmxStore
  rdmStore := h.rdmStore

/-- The engines of both may change, if they still know the same of RDM frames. -/
theorem Beside.withEngine (h : s.Beside twins listening standing s') {standing' : Standing}
    {e e' : Engine} (engine : e.Beside twins.offset standing' e')
    (undated : e.receiver.counters.rdmReceiveEnd =
      s.cell.value.receiver.counters.rdmReceiveEnd)
    (undated' : e'.receiver.counters.rdmReceiveEnd =
      s'.cell.value.receiver.counters.rdmReceiveEnd) :
    Beside twins listening standing' { s with cell := { s.cell with value := e } }
      { s' with cell := { s'.cell with value := e' } } where
  hardware := h.hardware
  journal := h.journal
  engine := engine
  ending := by
    change e'.receiver.counters.rdmReceiveEnd = e.receiver.counters.rdmReceiveEnd + _
    rw [undated, undated']
    exact h.ending
  uses := h.uses
  dmxStore := h.dmxStore
  rdmStore := h.rdmStore

section Primitives

variable {α β : Type}

/-- The contract of acts that keep two links side by side: their answers match. -/
abbrev Matches (twins : Twins H) (listening : Bool) (standing : Standing)
    (act act' : Act (Link H d r) α) (R : α → α → Prop) : Prop :=
  Abreast (Beside twins listening standing) act act' R

omit [Hardware H] in
/-- A critical section that finds the engine free. -/
theorem critical_free {act : Act (Link H d r) α} (free : s.cell.isFree = true) :
    Link.critical act s =
      (act { s with cell := { s.cell with exclusive := true } }).map fun done =>
        (done.1, { done.2 with cell := done.2.cell.leave }) := by
  have entered : s.cell.enter = .ok { s.cell with exclusive := true } := if_pos free
  change ((liftM s.cell.enter : Act (Link H d r) (Cell Engine)) s >>= fun p => _) = _
  rw [entered]
  change (act { s with cell := { s.cell with exclusive := true } } >>= fun done => _) = _
  cases act { s with cell := { s.cell with exclusive := true } } <;> rfl

omit [Hardware H] in
/-- A critical section that finds the engine in use. -/
theorem critical_used {act : Act (Link H d r) α} (used : s.cell.isFree = false) :
    Link.critical act s = .error .alreadyBorrowed := by
  have refused : s.cell.enter = .error .alreadyBorrowed := if_neg (by simp [used])
  change ((liftM s.cell.enter : Act (Link H d r) (Cell Engine)) s >>= fun p => _) = _
  rw [refused]
  rfl

omit [Hardware H] in
theorem observe_shared {act : Act (Link H d r) α} (shared : s.cell.exclusive = false) :
    Link.observe act s =
      (act { s with cell := { s.cell with readers := s.cell.readers + 1 } }).map fun done =>
        (done.1, { done.2 with cell := done.2.cell.unshare }) := by
  have entered : s.cell.share = .ok { s.cell with readers := s.cell.readers + 1 } :=
    if_neg (by simp [shared])
  change ((liftM s.cell.share : Act (Link H d r) (Cell Engine)) s >>= fun p => _) = _
  rw [entered]
  change (act { s with cell := { s.cell with readers := s.cell.readers + 1 } } >>=
    fun done => _) = _
  cases act { s with cell := { s.cell with readers := s.cell.readers + 1 } } <;> rfl

omit [Hardware H] in
theorem observe_used {act : Act (Link H d r) α} (used : s.cell.exclusive = true) :
    Link.observe act s = .error .alreadyBorrowed := by
  have refused : s.cell.share = .error .alreadyBorrowed := if_pos used
  change ((liftM s.cell.share : Act (Link H d r) (Cell Engine)) s >>= fun p => _) = _
  rw [refused]
  rfl

namespace Matches

variable {R : α → α → Prop}

/-- Critical sections of both end as their bodies do. -/
theorem critical {act act' : Act (Link H d r) α} {listening' : Bool} {standing' : Standing}
    (h : Pairs (Beside twins listening standing) act act' fun a a' t t' =>
      R a a' ∧ t.Beside twins listening' standing' t') :
    Pairs (Beside twins listening standing) (Link.critical act) (Link.critical act')
      fun a a' t t' => R a a' ∧ t.Beside twins listening' standing' t' := by
  intro s s' hs
  obtain ⟨readers, exclusive⟩ := Prod.mk.inj hs.uses
  have free : s'.cell.isFree = s.cell.isFree := by
    rw [Cell.isFree, Cell.isFree, readers, exclusive]
  cases found : s.cell.isFree with
  | false =>
      rw [critical_used found, critical_used (free.trans found)]
      rfl
  | true =>
      rw [critical_free found, critical_free (free.trans found)]
      refine (h _ _ ?_).map ?_
      · exact { hs with uses := Prod.ext readers rfl }
      · rintro ⟨a, t⟩ ⟨a', t'⟩ ⟨answers, beside⟩
        obtain ⟨readers', _⟩ := Prod.mk.inj beside.uses
        exact ⟨answers, { beside with uses := Prod.ext readers' rfl }⟩

theorem observe {act act' : Act (Link H d r) α} (h : Matches twins listening standing act act' R) :
    Matches twins listening standing (Link.observe act) (Link.observe act') R := by
  intro s s' hs
  obtain ⟨readers, exclusive⟩ := Prod.mk.inj hs.uses
  cases found : s.cell.exclusive with
  | true =>
      rw [observe_used found, observe_used (exclusive.trans found)]
      rfl
  | false =>
      rw [observe_shared found, observe_shared (exclusive.trans found)]
      refine (h _ _ ?_).map ?_
      · exact { hs with uses := Prod.ext (congrArg (· + 1) readers) exclusive }
      · rintro ⟨a, t⟩ ⟨a', t'⟩ ⟨answers, beside⟩
        obtain ⟨readers', exclusive'⟩ := Prod.mk.inj beside.uses
        exact ⟨answers, { beside with
          uses := Prod.ext (congrArg (· - 1) readers') exclusive' }⟩

theorem readClock : Matches twins listening standing (Link.readClock : Act (Link H d r) Micros)
    Link.readClock fun now now' => now' = now + twins.offset := by
  intro s s' h
  have journal := h.journal.cons s.line.now .clockRead rfl
  rw [← h.now] at journal
  exact ⟨h.now, h.withLine (twins.ticks h.hardware) journal rfl⟩

theorem now : Matches twins listening standing (Link.now : Act (Link H d r) Micros) Link.now
    fun now now' => now' = now + twins.offset :=
  fun _ _ h => ⟨h.now, h⟩

/-- An order is given to both, its deadline ahead. -/
theorem order (given : Order) (silent : listening = true → given.sends = false) :
    Matches twins listening standing (Link.order given : Act (Link H d r) Unit)
      (Link.order (given.later twins.offset)) fun _ _ => True := by
  intro s s' h
  have journal := h.journal.cons s.line.now (.order given) rfl
  rw [← h.now] at journal
  exact ⟨trivial, h.withLine (twins.obeys_order h.hardware silent) journal rfl⟩

/-- How far the transmit queue is, both are told alike. -/
theorem sample : Matches twins listening standing
    (onLine Line.sample : Act (Link H d r) Line.Status) (onLine Line.sample)
    fun status status' => status'.txReady = status.txReady ∧ status'.txIdle = status.txIdle := by
  intro s s' h
  obtain ⟨ready, idle, left⟩ := twins.tells_queue h.hardware
  exact ⟨⟨ready, idle⟩, h.withLine left (h.journal.look _ _ _ _) rfl⟩

/-- A link that listens is told all of the line status. -/
theorem sample_listening : Matches twins true standing
    (onLine Line.sample : Act (Link H d r) Line.Status) (onLine Line.sample)
    fun status status' => status' = status := by
  intro s s' h
  obtain ⟨status, left⟩ := twins.shows h.hardware
  exact ⟨status, h.withLine left (h.journal.look _ _ _ _) rfl⟩

theorem take_listening : Matches twins true standing
    (onLine Line.take : Act (Link H d r) UInt8) (onLine Line.take)
    fun byte byte' => byte' = byte := by
  intro s s' h
  obtain ⟨byte, left⟩ := twins.takes h.hardware
  exact ⟨byte, h.withLine left h.journal rfl⟩

/-- The pin is driven where the link does not listen. -/
theorem drive (high : Bool) : Matches twins false standing
    (onLine (Line.drive high) : Act (Link H d r) Bool) (onLine (Line.drive high))
    fun driven driven' => driven' = driven := by
  intro s s' h
  obtain ⟨driven, left⟩ := twins.drives high h.hardware
  have journal : Journal.Ahead twins.offset
      (⟨s.line.now, .pin high (Hardware.drive high s.line.hardware).1⟩ :: s.line.journal)
      (⟨s'.line.now, .pin high (Hardware.drive high s'.line.hardware).1⟩ :: s'.line.journal) := by
    rw [driven, h.now]
    exact h.journal.cons s.line.now (.pin high _) rfl
  exact ⟨driven, h.withLine left journal rfl⟩

theorem raised {interrupt : Interrupt} (served : twins.served interrupt) :
    Matches twins listening standing
      (onLine (Line.raised interrupt) : Act (Link H d r) Bool)
      (onLine (Line.raised interrupt)) fun raised raised' => raised' = raised := by
  intro s s' h
  obtain ⟨raised, left⟩ := twins.raises served h.hardware
  exact ⟨raised, h.withLine left h.journal rfl⟩

theorem getEngine : Matches twins listening standing (Link.getEngine : Act (Link H d r) Engine)
    Link.getEngine (Engine.Beside twins.offset standing) :=
  fun _ _ h => ⟨h.engine, h⟩

theorem getTransmitter : Matches twins listening standing
    (Link.getTransmitter : Act (Link H d r) Transmitter) Link.getTransmitter
    fun t t' => t.Ahead twins.offset t' ∧ (standing ≠ (.output, true) → t.state = .idle) :=
  fun _ _ h => ⟨⟨h.engine.transmitter, h.engine.rests⟩, h⟩

theorem setTransmitter {t t' : Transmitter} (ahead : t.Ahead twins.offset t')
    (rests : standing ≠ (.output, true) → t.state = .idle) :
    Matches twins listening standing (Link.setTransmitter t : Act (Link H d r) Unit)
      (Link.setTransmitter t') fun _ _ => True :=
  fun _ _ h => ⟨trivial, h.withEngine { h.engine with transmitter := ahead, rests } rfl rfl⟩

theorem modifyTransmitter {f f' : Transmitter → Transmitter}
    (ahead : ∀ t t' : Transmitter, t.Ahead twins.offset t' → (f t).Ahead twins.offset (f' t'))
    (rests : standing ≠ (.output, true) → ∀ t : Transmitter, t.state = .idle →
      (f t).state = .idle) :
    Matches twins listening standing (Link.modifyTransmitter f : Act (Link H d r) Unit)
      (Link.modifyTransmitter f') fun _ _ => True :=
  fun _ _ h => ⟨trivial, h.withEngine { h.engine with
    transmitter := ahead _ _ h.engine.transmitter
    rests := fun other => rests other _ (h.engine.rests other) } rfl rfl⟩

/-- Any event but a look at the line status and a frame published. -/
theorem note {time time' : Micros} (event : Event) (later : time' = time + twins.offset)
    (deed : event.isLook = false)
    (undated : ∀ journal : Journal,
      Journal.rdmEnd? (⟨time, event⟩ :: journal) = Journal.rdmEnd? journal) :
    Matches twins listening standing (Link.note time event : Act (Link H d r) Unit)
      (Link.note time' (event.later twins.offset)) fun _ _ => True := by
  intro s s' h
  subst later
  exact ⟨trivial, h.withLine h.hardware (h.journal.cons time event deed) (undated _)⟩

end Matches

end Primitives

end Link

end Dmx512
