import Dmx512.Proofs.Link.TwinReception

/-!
# Interrupts on twin hardware

Whatever interrupts a link of some standing serves, they keep it side by side with its twin. The
transmit sequence runs on an output only, so that what it writes is not listened to; and an instant
that a deadline is counted from is known to both by then. Waits of the foreground end together.
-/

namespace Dmx512.Link

open Act Standard

variable {H : Type} [Hardware H] {d r : Nat} {twins : Twins H} {listening : Bool}
variable {standing : Standing} {e e' : Engine}

omit [Hardware H] in
theorem onLine_bind {α β : Type} (act : Act (Line H) α) (next : α → Act (Line H) β) :
    (onLine (act >>= next) : Act (Link H d r) β) = onLine act >>= fun a => onLine (next a) := by
  funext s
  change (act s.line >>= fun done => next done.1 done.2) >>= _ = (act s.line >>= _) >>= _
  cases act s.line <;> rfl

/-- Handing over bytes does not move the sequence on. -/
theorem wp_fill_state (s : Link H d r) : WP (fun _ => True) fill
    (fun _ t => t.cell.value.transmitter.state = s.cell.value.transmitter.state) s := by
  rw [fill, WP.bind_iff, wp_getTransmitter, WP.bind_iff, wp_onLine]
  exact (WP.unasked _ _).mono fun _ _ _ => rfl

/-- Links side by side that send, with a frame on its way. -/
abbrev BesideBegun (twins : Twins H) (s s' : Link H d r) : Prop :=
  s.Beside twins false (.output, true) s' ∧ s.cell.value.transmitter.state ≠ .idle ∧ True

namespace Matches

theorem writeReady (bytes : List UInt8) : Matches twins false standing
    (onLine (Line.writeReady bytes) : Act (Link H d r) Nat) (onLine (Line.writeReady bytes))
    fun count count' => count' = count := by
  induction bytes with
  | nil => exact Abreast.pure rfl
  | cons byte rest ih =>
      rw [Line.writeReady, onLine_bind]
      apply sample.bind
      rintro status status' ⟨ready, _⟩
      rw [apply_ite onLine, apply_ite onLine]
      refine Pairs.ite (by rw [ready]) (fun _ => ?_) fun _ => Abreast.pure rfl
      rw [onLine_bind, onLine_bind]
      apply Abreast.next (order (.write byte) (by simp))
      apply ih.bind
      rintro count _ rfl
      exact Abreast.pure rfl

theorem knowTransmitter : Pairs (Beside twins listening standing)
    (Link.getTransmitter : Act (Link H d r) Transmitter) Link.getTransmitter fun t t' s s' =>
      (t.Ahead twins.offset t' ∧ (standing ≠ (.output, true) → t.state = .idle)) ∧
        s.Beside twins listening standing s' ∧ s.cell.value.transmitter = t :=
  fun _ _ h => ⟨⟨h.engine.transmitter, h.engine.rests⟩, h, rfl⟩

/-- While a frame is on its way, its beginning is known to both. -/
theorem begun {α : Type} {act act' : Act (Link H d r) α} {R : α → α → Prop}
    (h : Matches twins false (.output, true) act act' R)
    (kept : ∀ s : Link H d r, WP (fun _ => True) act
      (fun _ t => t.cell.value.transmitter.state = s.cell.value.transmitter.state) s) :
    Abreast (BesideBegun twins) act act' R :=
  h.along (fun s underway => (kept s).mono fun _ _ same => same ▸ underway) fun s _ =>
    WP.unasked _ s

/-- A frame that is on its way goes on. -/
theorem proceed (f : Transmitter → Transmitter)
    (apart : ∀ t frameStart, f { t with frameStart } = { f t with frameStart })
    (underway : ∀ t : Transmitter, t.state ≠ .idle → (f t).state ≠ .idle) :
    Abreast (BesideBegun twins) (Link.modifyTransmitter f : Act (Link H d r) Unit)
      (Link.modifyTransmitter f) fun _ _ => True :=
  fun _ _ h => ⟨trivial, h.1.withEngine { h.1.engine with
    transmitter := h.1.engine.transmitter.proceed h.2.1 f apart
    rests := fun other => absurd rfl other } rfl rfl, underway _ h.2.1, trivial⟩

theorem fill : Matches twins false (.output, true) (Link.fill : Act (Link H d r) Bool) Link.fill
    fun whole whole' => whole' = whole := by
  rw [Link.fill]
  apply getTransmitter.bind
  rintro t t' ⟨ahead, _⟩
  have bytes : t'.wire.drop t'.sent = t.wire.drop t.sent := by rw [ahead.wire, ahead.sent]
  rw [bytes]
  apply (writeReady _).bind
  rintro _ count rfl
  have counted := ahead.change (fun t => { t with sent := t.sent + count }) (fun _ _ => rfl) id
  apply (setTransmitter counted (absurd rfl)).next
  refine Abreast.pure ?_
  rw [ahead.wire, ahead.sent]

theorem continueFrame : Matches twins standing.listens standing
    (Link.continueFrame : Act (Link H d r) Unit) Link.continueFrame fun _ _ => True := by
  rw [Link.continueFrame]
  apply Pairs.bind_known knowTransmitter
  rintro t t' ⟨ahead, rests⟩
  refine Pairs.ite (by rw [ahead.state]) (fun waits => ?_) fun _ _ _ h => ⟨trivial, h.1⟩
  -- Bytes wait for room on an output that is sending only.
  have sends : standing = (.output, true) := by
    refine Decidable.byContradiction fun other => ?_
    rw [rests other] at waits
    cases waits
  subst sends
  refine Pairs.mono (Pairs.of_imp (Abreast.bind (S := fun _ _ => True)
    (fill.begun wp_fill_state) ?_) ?_) fun _ _ _ _ h => ⟨trivial, h.2.1⟩
  · rintro whole _ rfl
    refine Pairs.ite Iff.rfl (fun _ => ?_) fun _ => Abreast.pure trivial
    apply ((order (.allowTransmit false) (by simp)).begun fun _ => rfl).next
    exact proceed (fun t => { t with state := .interPacket }) (fun _ _ => rfl) (by simp)
  · rintro s s' ⟨h, rfl⟩
    exact ⟨h, by simp [waits], trivial⟩

/-- Deadlines that are ahead, if there are any. -/
abbrev Later (twins : Twins H) (next next' : Option Micros) : Prop :=
  next' = next.map (· + twins.offset)

theorem beginBreak (now : Micros) : Matches twins false (.output, true)
    (Link.beginBreak now : Act (Link H d r) (Option Micros))
    (Link.beginBreak (now + twins.offset)) (Later twins) := by
  rw [Link.beginBreak, Link.beginBreak]
  apply getTransmitter.bind
  rintro t t' ⟨ahead, _⟩
  refine Pairs.ite (by rw [ahead.stopping]) (fun _ => ?_) fun _ => ?_
  · have stopped := ahead.change (fun t => { t with state := .idle }) (fun _ _ => rfl) fun _ => rfl
    exact (setTransmitter stopped (absurd rfl)).next (Abreast.pure rfl)
  · apply Abreast.bind (Pairs.lift (ahead.beginFrame now))
    rintro t t' ⟨ahead, _⟩
    apply (setTransmitter ahead (absurd rfl)).next
    apply Abreast.next (order (.setBreak true) (by simp))
    refine Abreast.pure (congrArg some ?_)
    rw [ahead.timing]
    grind

theorem beginMark (now : Micros) : Pairs (BesideBegun twins)
    (Link.beginMark now : Act (Link H d r) (Option Micros)) (Link.beginMark (now + twins.offset))
    fun next next' s s' => Later twins next next' ∧ s.Beside twins false (.output, true) s' := by
  have known : Pairs (BesideBegun twins) (Link.getTransmitter : Act (Link H d r) Transmitter)
      Link.getTransmitter fun t t' s s' => (t.Ahead twins.offset t' ∧ t.state ≠ .idle) ∧
        s.Beside twins false (.output, true) s' :=
    fun _ _ h => ⟨⟨h.1.engine.transmitter, h.2.1⟩, h.1⟩
  rw [Link.beginMark, Link.beginMark]
  apply Pairs.bind_known known
  rintro t t' ⟨ahead, underway⟩
  apply Abreast.next (order (.setBreak false) (by simp))
  have marked := ahead.proceed underway (fun t => { t with state := .markAfterBreak })
    fun _ _ => rfl
  apply (setTransmitter marked (absurd rfl)).next
  refine Abreast.pure (congrArg some ?_)
  rw [ahead.timing]
  grind

/-- Bytes that wait are given the same time. -/
theorem awaitData (now : Micros) : Matches twins false (.output, true)
    (Link.awaitData now : Act (Link H d r) (Option Micros))
    (Link.awaitData (now + twins.offset)) (Later twins) := by
  rw [Link.awaitData, Link.awaitData]
  apply Abreast.next (modifyTransmitter (fun _ _ ahead => ahead.overrun) (absurd rfl))
  apply getTransmitter.bind
  rintro t t' ⟨ahead, _⟩
  rw [ahead.catchUpTime]
  apply Abreast.bind (Pairs.lift (Checked.Both.same (R := Eq) (fun _ => rfl) _))
  rintro wait _ rfl
  refine Abreast.pure (congrArg some ?_)
  grind

theorem settleData (whole : Bool) : Abreast (BesideBegun twins)
    (Link.settleData whole : Act (Link H d r) Unit) (Link.settleData whole) fun _ _ => True := by
  cases whole with
  | true => exact proceed (fun t => { t with state := .interPacket }) (fun _ _ => rfl) (by simp)
  | false =>
      exact (proceed (fun t => { t with state := .data }) (fun _ _ => rfl) (by simp)).next
        ((order (.allowTransmit true) (by simp)).begun fun _ => rfl)

/-- The next frame is due a period after the beginning of this one, which both know. -/
theorem beginData : Abreast (BesideBegun twins)
    (Link.beginData : Act (Link H d r) (Option Micros)) Link.beginData (Later twins) := by
  rw [Link.beginData]
  apply (proceed (fun t => { t with sent := 0 }) (fun _ _ => rfl) fun _ => id).next
  apply (fill.begun wp_fill_state).bind
  rintro _ whole rfl
  apply (settleData whole).next
  intro s s' h
  let t := s.cell.value.transmitter
  let t' := s'.cell.value.transmitter
  have ahead : t.Ahead twins.offset t' := h.1.engine.transmitter
  refine ⟨congrArg some ?_, h⟩
  change t'.frameStart + t'.timing.effective = t.frameStart + t.timing.effective + twins.offset
  rw [ahead.began h.2.1, ahead.timing]
  grind

/-- The sequence advances by the same phase on both, and asks for the next alarm alike. -/
theorem advance (engine : e.Beside twins.offset (.output, true) e') (now : Micros) :
    Pairs (BesideAt twins false (.output, true) e e')
      (Link.advance now e.transmitter.state : Act (Link H d r) (Option Micros))
      (Link.advance (now + twins.offset) e'.transmitter.state)
      fun next next' s s' =>
        Later twins next next' ∧ s.Beside twins false (.output, true) s' := by
  rw [engine.transmitter.state]
  have underway (phase : e.transmitter.state ≠ .idle) (s s' : Link H d r)
      (known : BesideAt twins false (.output, true) e e' s s') : BesideBegun twins s s' :=
    ⟨known.1, known.2.1 ▸ phase, trivial⟩
  cases phase : e.transmitter.state with
  | idle | interPacket => exact (beginBreak now).of_imp fun _ _ known => known.1
  | lineBreak => exact (beginMark now).of_imp (underway (by simp [phase]))
  | markAfterBreak =>
      exact (beginData.of_imp (underway (by simp [phase]))).mono fun _ _ _ _ h => ⟨h.1, h.2.1⟩
  | data => exact (awaitData now).of_imp fun _ _ known => known.1

theorem setPace (next : Option Micros) : Matches twins listening standing
    (Link.setPace next : Act (Link H d r) Unit)
    (Link.setPace (next.map (· + twins.offset))) fun _ _ => True := by
  cases next with
  | none => exact order (.cancelAlarm .transmit) fun _ => rfl
  | some deadline => exact order (.setAlarm .transmit deadline) fun _ => rfl

theorem pace : Matches twins standing.listens standing
    (Link.pace : Act (Link H d r) Unit) Link.pace fun _ _ => True := by
  rw [Link.pace]
  apply Pairs.bind_known knowEngine
  intro e e' engine
  refine Pairs.ite (by rw [engine.sending.2]) (fun sends => ?_) fun _ =>
    (setPace none).of_imp fun _ _ known => known.1
  rw [engine.sending.1, decide_eq_true_iff] at sends
  subst sends
  apply Pairs.bind_known (readClock.at_engine (fun _ known => known) fun _ known => known)
  rintro time _ rfl
  have noted : Matches twins false (.output, true)
      (Link.note time (.transmitAlarm e.transmitter.state) : Act (Link H d r) Unit)
      (Link.note (time + twins.offset) (.transmitAlarm e'.transmitter.state)) fun _ _ => True := by
    rw [engine.transmitter.state]
    exact note (.transmitAlarm _) rfl rfl fun _ => rfl
  apply Pairs.bind_known (noted.at_engine (fun _ known => known) fun _ known => known)
  intro _ _ _
  apply Pairs.bind_known (advance engine time)
  rintro next _ rfl
  exact setPace next

theorem serve (interrupt : Interrupt) : Matches twins standing.listens standing
    (Link.serve interrupt : Act (Link H d r) Unit) (Link.serve interrupt) fun _ _ => True := by
  cases interrupt with
  | uart => exact critical ((drainReceive serviceLimit).next (continueFrame.next syncWatchdog))
  | transmitTimer => exact critical pace
  | receiveTimeout => exact critical timeOut

theorem serveRaised {interrupts : List Interrupt}
    (served : ∀ interrupt ∈ interrupts, twins.served interrupt) :
    Matches twins standing.listens standing (Link.serveRaised interrupts : Act (Link H d r) Unit)
      (Link.serveRaised interrupts) fun _ _ => True := by
  induction interrupts with
  | nil => exact Abreast.pure trivial
  | cons interrupt rest ih =>
      obtain ⟨first, others⟩ := List.forall_mem_cons.mp served
      rw [Link.serveRaised]
      apply (raised first).bind
      rintro found _ rfl
      exact Pairs.ite Iff.rfl (fun _ => (serve interrupt).next (ih others)) fun _ => ih others

theorem foregroundClock : Matches twins standing.listens standing
    (Link.foregroundClock : Act (Link H d r) Micros) Link.foregroundClock
    fun now now' => now' = now + twins.offset := by
  intro s s' h
  obtain ⟨same, served⟩ := twins.polls (twins.alike_false h.hardware)
  change Checked.Both _
    ((Link.serveRaised (Hardware.polled s.line.hardware) >>= fun _ => Link.readClock) s)
    ((Link.serveRaised (Hardware.polled s'.line.hardware) >>= fun _ => Link.readClock) s')
  rw [same]
  exact (serveRaised served).next readClock s s' h

theorem waitFor (micros : Micros) : Matches twins standing.listens standing
    (Link.waitFor micros : Act (Link H d r) Unit) (Link.waitFor micros) fun _ _ => True :=
  foregroundClock.forMicros micros _

theorem waitWhile {busy busy' : Act (Link H d r) Bool}
    (polls : Matches twins standing.listens standing busy busy' Eq) (timeout : Micros) :
    Matches twins standing.listens standing (Link.waitWhile busy timeout)
      (Link.waitWhile busy' timeout) Eq :=
  foregroundClock.whileBusy polls timeout _

end Matches

end Dmx512.Link
