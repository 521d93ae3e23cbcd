import Dmx512.Proofs.Act.Pairs
import Dmx512.Transmission.Transmitter

/-!
# A transmitter whose clock is ahead

A transmitter refers to one instant, the beginning of the present frame. Of two transmitters one
is ahead by an offset if they differ in that instant only, and by the offset; where no frame was
begun it may have stayed where it was.
-/

namespace Dmx512.Transmitter

structure Ahead (offset : Micros) (t t' : Transmitter) : Prop where
  same : t' = { t with frameStart := t'.frameStart }
  frameStart : t'.frameStart = t.frameStart + offset ∨
    t'.frameStart = t.frameStart ∧ t.state = .idle

namespace Ahead

variable {offset : Micros} {t t' : Transmitter}

theorem eq_of_zero (h : t.Ahead 0 t') : t' = t := by
  have frameStart : t'.frameStart = t.frameStart :=
    h.frameStart.elim (fun moved => moved.trans (UInt32.add_zero _)) And.left
  rw [h.same, frameStart]

theorem state (h : t.Ahead offset t') : t'.state = t.state := by rw [h.same]

theorem wire (h : t.Ahead offset t') : t'.wire = t.wire := by rw [h.same]

theorem sent (h : t.Ahead offset t') : t'.sent = t.sent := by rw [h.same]

theorem timing (h : t.Ahead offset t') : t'.timing = t.timing := by rw [h.same]

theorem stopping (h : t.Ahead offset t') : t'.stopping = t.stopping := by rw [h.same]

theorem overruns (h : t.Ahead offset t') : t'.overruns = t.overruns := by rw [h.same]

theorem payload (h : t.Ahead offset t') : t'.payload = t.payload := by
  rw [h.same]
  rfl

theorem isBusy (h : t.Ahead offset t') : t'.isBusy = t.isBusy := by
  rw [h.same]
  rfl

/-- The beginning of a frame that is on its way is known. -/
theorem began (h : t.Ahead offset t') (underway : t.state ≠ .idle) :
    t'.frameStart = t.frameStart + offset :=
  h.frameStart.resolve_right fun still => underway still.2

theorem frameStart_of_apart {f : Transmitter → Transmitter}
    (apart : ∀ t frameStart, f { t with frameStart } = { f t with frameStart }) (t : Transmitter) :
    (f t).frameStart = t.frameStart := by
  have whole : f t = { f t with frameStart := t.frameStart } := apart t t.frameStart
  rw [whole]

/-- A change that leaves the beginning of the frame alone leaves one transmitter ahead. -/
theorem change (h : t.Ahead offset t') (f : Transmitter → Transmitter)
    (apart : ∀ t frameStart, f { t with frameStart } = { f t with frameStart })
    (idle : t.state = .idle → (f t).state = .idle) : (f t).Ahead offset (f t') := by
  have kept := frameStart_of_apart apart
  refine ⟨?_, ?_⟩
  · rw [kept, ← apart, ← h.same]
  · rw [kept, kept]
    exact h.frameStart.imp_right fun still => ⟨still.1, idle still.2⟩

theorem start (h : t.Ahead offset t') : t.start.Ahead offset t'.start :=
  h.change Transmitter.start (fun _ _ => rfl) fun _ => rfl

theorem stop (h : t.Ahead offset t') : t.stop.Ahead offset t'.stop :=
  h.change Transmitter.stop (fun _ _ => rfl) fun _ => rfl

theorem requestStop (h : t.Ahead offset t') : t.requestStop.Ahead offset t'.requestStop :=
  h.change Transmitter.requestStop (fun _ _ => rfl) id

theorem overrun (h : t.Ahead offset t') : t.overrun.Ahead offset t'.overrun :=
  h.change Transmitter.overrun (fun _ _ => rfl) id

/-- While a frame is on its way, any change that leaves its beginning alone will do. -/
theorem proceed (h : t.Ahead offset t') (underway : t.state ≠ .idle) (f : Transmitter → Transmitter)
    (apart : ∀ t frameStart, f { t with frameStart } = { f t with frameStart }) :
    (f t).Ahead offset (f t') := by
  have kept := frameStart_of_apart apart
  refine ⟨?_, .inl ?_⟩
  · rw [kept, ← apart, ← h.same]
  · rw [kept, kept, h.began underway]

/-- The timing is resolved for both alike, in whatever phase they are. -/
theorem resolve (h : t.Ahead offset t') (resolved : Checked Timing) :
    Checked.Both (fun u u' => u.Ahead offset u' ∧ u.state = t.state)
      (do pure { t with timing := ← resolved }) (do pure { t' with timing := ← resolved }) := by
  apply (Checked.Both.same (R := Eq) (fun _ => rfl) resolved).bind
  rintro timing _ rfl
  exact ⟨h.change (fun t => { t with timing }) (fun _ _ => rfl) id, rfl⟩

theorem configure (h : t.Ahead offset t') (config : Config) :
    Checked.Both (fun u u' => u.Ahead offset u' ∧ u.state = t.state) (t.configure config)
      (t'.configure config) := by
  rw [Transmitter.configure, Transmitter.configure, h.payload]
  exact h.resolve _

theorem queue (h : t.Ahead offset t') (frame : List UInt8) :
    Checked.Both (fun u u' => u.Ahead offset u' ∧ u.state = t.state) (t.queue frame)
      (t'.queue frame) := by
  have queued : { t with queued := some frame }.Ahead offset { t' with queued := some frame } :=
    h.change (fun t => { t with queued := some frame }) (fun _ _ => rfl) id
  have payload := queued.payload
  rw [Transmitter.queue, Transmitter.queue]
  refine .ite Iff.rfl (fun _ => ?_) fun _ => rfl
  dsimp only
  rw [payload, h.timing]
  exact queued.resolve _

/-- A frame that both begin is begun later by the offset. -/
theorem beginFrame (h : t.Ahead offset t') (now : Micros) :
    Checked.Both (fun u u' => u.Ahead offset u' ∧ u.state ≠ .idle) (t.beginFrame now)
      (t'.beginFrame (now + offset)) := by
  have queued : t'.queued = t.queued := by rw [h.same]
  have begins (u u' : Transmitter) (h : u.Ahead offset u') :
      { u with frameStart := now, state := .lineBreak }.Ahead offset
        { u' with frameStart := now + offset, state := .lineBreak } :=
    ⟨by rw [h.same], .inl rfl⟩
  rw [Transmitter.beginFrame, Transmitter.beginFrame, queued, h.timing]
  cases t.queued with
  | none => exact ⟨begins t t' h, by simp⟩
  | some frame =>
      apply (Checked.Both.same (R := Eq) (fun _ => rfl) _).bind
      rintro timing _ rfl
      have put : { t with wire := frame, queued := none, timing }.Ahead offset
          { t' with wire := frame, queued := none, timing } :=
        h.change (fun t => { t with wire := frame, queued := none, timing }) (fun _ _ => rfl) id
      exact ⟨begins _ _ put, by simp⟩

theorem catchUpTime (h : t.Ahead offset t') : t'.catchUpTime = t.catchUpTime := by
  rw [h.same]
  rfl

end Ahead

end Dmx512.Transmitter
