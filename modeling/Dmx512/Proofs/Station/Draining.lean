import Dmx512.Proofs.Link.Draining
import Dmx512.Proofs.Link.Striding
import Dmx512.Proofs.Station.Direction

/-!
# Stopping a line that sends

A station that stops or turns a line that sends asks the sequence to end and waits, for no
longer than its drain timeout allows, until the frame has gone out: until the transmitter has
handed it over and the interface is empty. Then it halts the sequencer, however the wait has
ended, and the line stays or is turned.

On a clock of constant step the wait ends where the clock ever tells that the timeout has
passed; a frame that stays on the wire is waited for without end where it does not.
-/

namespace Dmx512.Attached

open Act Link

variable {H : Type} [Hardware H] {d r : Nat}

omit [Hardware H] in
/-- No frame is going out: the last one was handed over, and the latest look at the interface
found it empty. -/
def Cleared (link : Link H d r) : Prop :=
  link.cell.value.transmitter.isBusy = false ∧ ∃ time status earlier,
    link.line.journal = ⟨time, .sampled status⟩ :: earlier ∧ status.txIdle = true

/-- How a link drains: it serves interrupts until its frame has gone out, or until it has done
so for as long as its timeout. -/
structure Drains (timeout : Micros) (s : Link H d r) (inTime : Bool) (t : Link H d r) :
    Prop where
  ran : Link.waitWhile transmitBusy timeout s = .ok (inTime, t)
  moves : Moves (· = .interrupt) s t
  cleared : inTime = true → Cleared t
  late : inTime = false → s.Outlasts timeout t

theorem wp_awaitClear {link : Link H d r} (used : link.uses = free) (sound : link.scene.Sound)
    (timeout : Micros) :
    WP Fault.IsStall (Link.waitWhile transmitBusy timeout) (Drains timeout link) link := by
  have ends : WP Fault.IsStall (Link.waitWhile transmitBusy timeout) (fun inTime t =>
      Moves (· = .interrupt) link t ∧ (inTime = true → Cleared t) ∧
        (inTime = false → link.Outlasts timeout t)) link := by
    apply wp_waitWhile used sound (.inl Fault.isStall_stalled)
    intro t moved
    apply wp_transmitBusy (moved.uses.trans used)
    · exact fun _ => ⟨.refl t, nofun⟩
    · rintro rests status _ ⟨⟩
      exact ⟨.step (.sample _ _) rfl rfl, fun idle => ⟨rests, _, _, _, rfl, by simpa using idle⟩⟩
  exact ends.ran.mono fun _ _ ⟨ran, moves, cleared, late⟩ => ⟨ran, moves, cleared, late⟩

variable {s : Attached H d r}

/-- How a line that sends is stopped or turned: its sequence drains and is halted, and
whatever follows leaves it as it is. -/
theorem wp_setDirection_sending (h : s.Ready) (sending : s.link.cell.value.sending = true)
    {target : Direction} {enable : Bool} (stops : target = .output → enable = false) :
    WP Fault.IsStall (setDirection target enable) (fun _ t => ∃ inTime m halted,
      Drains s.drainTimeout s.link.asked inTime m ∧
      Link.critical Link.halt m = .ok ((), halted) ∧ halted.scene.Aside t.link.scene) s := by
  obtain ⟨output, running⟩ := Engine.sending_iff.mp sending
  have used : s.link.asked.uses = Link.free := h.free
  have drains := (wp_awaitClear used (h.sound_asked sending) s.drainTimeout).mono
    fun _ m drained => And.intro (drained.moves.uses.trans used) drained
  have stopped := wp_stopSequencer_output h output drains
  rw [setDirection]
  apply WP.bind (wp_direction h.free)
  rintro _ t ⟨rfl, rfl⟩
  dsimp only
  rw [WP.ite_iff, output, running]
  constructor
  · intro stays
    rw [stops stays]
    apply WP.bind stopped
    rintro _ u ⟨_, inTime, m, drained', halted⟩
    exact ⟨inTime, m, u.link, drained', halted, .refl _⟩
  · intro other
    apply WP.bind stopped
    rintro _ u ⟨used, inTime, m, drained', halted⟩
    have input : target = .input := by
      cases target with
      | input => rfl
      | output => contradiction
    apply (wp_turn used target enable).mono
    rintro outcome v ⟨turned, _⟩
    refine ⟨inTime, m, u.link, drained', halted, ?_⟩
    rcases turned with ⟨_, turns⟩ | ⟨_, time, refused⟩
    · exact Scene.Turns.aside (input ▸ turns)
    · rw [refused]
      exact .note (.inr (.inr rfl)) time

/-- A look at a frame going out looks at the line status only. -/
theorem looks_transmitBusy {link t : Link H d r} {isBusy : Bool}
    (looked : transmitBusy link = .ok (isBusy, t)) : link.Looks t := by
  have looks (used : link.uses = Link.free) :
      WP (fun _ => False) transmitBusy (fun _ t => link.Looks t) link := by
    apply wp_transmitBusy used
    · exact fun _ => .inl rfl
    · intro _ status next sampled
      obtain ⟨line, ⟨value, readers, exclusive⟩, dmxStore, rdmStore⟩ := link
      obtain ⟨rfl, rfl⟩ := Prod.mk.inj used
      cases sampled
      exact .inr ⟨_, rfl⟩
  obtain ⟨line, ⟨value, _ | readers, _ | _⟩, dmxStore, rdmStore⟩ := link
  · exact (looks rfl).elim looked
  all_goals cases looked

/-- A drain stops with a fault only where its wait never ends. -/
theorem Ready.mayDrain_or_stall (h : s.Ready) (sending : s.link.cell.value.sending = true) :
    s.MayDrain fun fault => fault.IsStall ∧
      Link.waitWhile transmitBusy s.drainTimeout s.link.asked = .error .stalled := by
  have drains := h.mayDrain Fault.isStall_stalled sending
  cases ended : Link.waitWhile transmitBusy s.drainTimeout s.link.asked with
  | ok outcome => exact WP.of_ends ended drains
  | error fault =>
      have stall : fault = .stalled := drains.allows ended
      rw [MayDrain, WP, ended]
      exact ⟨stall, congrArg _ stall⟩

/-- A drain ends on a clock that moves on from reading to reading, if its timeout is no more
than half of the range of the clock. -/
theorem Ready.mayDrain_ticking (h : s.Ready) (ticking : Ticking H d r)
    (short : s.drainTimeout.toNat ≤ 2147483648)
    (sending : s.link.cell.value.sending = true) : s.MayDrain fun _ => False := by
  have used : s.link.asked.uses = Link.free := h.free
  have polls (t : Link H d r) (moved : Moves (· = .interrupt) s.link.asked t) :
      WP (fun _ => False) transmitBusy
        (fun isBusy u => Moves (· = .interrupt) t u ∧ (isBusy = false → True)) t := by
    apply wp_transmitBusy (moved.uses.trans used)
    · exact fun _ => ⟨.refl t, nofun⟩
    · rintro _ status _ ⟨⟩
      exact ⟨.step (.sample _ _) rfl rfl, fun _ => trivial⟩
  exact (wp_waitWhile used (h.sound_asked sending)
    (.inr ⟨ticking, short, fun _ _ _ => looks_transmitBusy⟩) polls).mono fun _ _ ⟨moves, _⟩ => moves

section Striding

variable {step : Micros} {among : H → Prop} {link : Link H d r}

/-- No look finds the frame gone: it goes no further without interrupts, or the interface is
never empty. -/
def Lasts (among : H → Prop) (link : Link H d r) : Prop :=
  link.cell.value.transmitter.isBusy = true ∨
    ∀ h : H, among h → (Hardware.sample h).1.txIdle = false

/-- A look at a frame going out leaves the engine and the clock alone. -/
theorem polls_transmitBusy (striding : Striding H step among) (used : link.uses = free) :
    Polls among link.cell (Lasts among link) (transmitBusy : Act (Link H d r) Bool) := by
  intro s same at_
  have used' : s.uses = free :=
    (congrArg (fun cell => (cell.readers, cell.exclusive)) same).trans used
  apply wp_transmitBusy used'
  · exact fun _ => ⟨same, at_, rfl, fun _ => rfl⟩
  · rintro rests status _ ⟨⟩
    obtain ⟨among', stands⟩ := striding.looks _ at_
    refine ⟨same, among', stands, ?_⟩
    rintro (busy | never)
    · rw [same, busy] at rests
      contradiction
    · exact congrArg not (never _ at_)

/-- A drain ends where the clock ever tells that its timeout has passed. -/
theorem Ready.mayDrain_striding (h : s.Ready) (striding : Striding H step among)
    (moves : 0 < step.toNat) (at_ : among s.link.line.hardware)
    (sending : s.link.cell.value.sending = true)
    (told : s.drainTimeout.toNat ≤ farthest step) : s.MayDrain (fun _ => False) := by
  have used : s.link.asked.uses = Link.free := h.free
  have polls := polls_transmitBusy striding used
  obtain ⟨_, _, ended⟩ := striding.waitWhile_ends moves polls at_ told
  exact WP.of_ends ended (h.mayDrain Fault.isStall_stalled sending)

/-- Where a drain has no end, a line that sends is neither stopped nor turned. -/
theorem Ready.wp_setDirection_endless (h : s.Ready) (sending : s.link.cell.value.sending = true)
    {target : Direction} {enable : Bool} (stops : target = .output → enable = false)
    (endless : Link.waitWhile transmitBusy s.drainTimeout s.link.asked = .error .stalled) :
    WP Fault.IsStall (setDirection target enable) (fun _ _ => False) s := by
  apply (wp_setDirection_sending h sending stops).mono
  rintro _ _ ⟨_, _, _, drains, _⟩
  cases endless.symm.trans drains.ran

end Striding

end Dmx512.Attached
