import Dmx512.Proofs.Link.Sending
import Dmx512.Proofs.Rdm.Message
import Dmx512.Proofs.Station.Direction
import Dmx512.Proofs.Station.Keeping

/-!
# Sending RDM frames

A station that sends an RDM frame makes of its link what the relations of sending
by hand say: nothing at all where a sequencer streams or the message is malformed,
and otherwise a wait for the spacing, the frame with its checksum, and a line that is
handed back. Its waits may stall, and nothing else may.
-/

namespace Dmx512.Attached

open Act Link Standard

variable {H : Type} {d r : Nat} {allowed : Fault → Prop}

section Line

variable [Hardware H] {s : Link H d r}

/-- The line status is the last thing that a look at it tells. -/
theorem wp_lineStatus (used : s.uses = free) :
    WP allowed lineStatus (fun status t =>
      (∃ time, t.scene = s.scene.note time (.sampled status)) ∧ t.uses = s.uses) s := by
  rw [lineStatus, wp_observe used, wp_onLine]
  apply Line.wp_sample
  intro status time hardware
  exact ⟨⟨time, rfl⟩, rfl⟩

/-- What is found out by a look at the line status only looks at it. -/
theorem looks_of_status {test : Line.Status → Bool} {answer : Bool} {t : Link H d r}
    (looked : (do pure (test (← lineStatus)) : Act (Link H d r) Bool) s = .ok (answer, t)) :
    s.Looks t := by
  obtain ⟨⟨status, u⟩, saw, same⟩ := Checked.bind_ok looked
  cases same
  exact .inr ⟨status, saw⟩

/-- A wait for a state of the interface serves interrupts, and ends, if it does so in time,
with a look that finds it so. -/
theorem wp_awaitStatus (may : MayWait allowed H d r) (used : s.uses = free)
    (sound : s.scene.Sound) (test : Line.Status → Bool) :
    WP allowed (Link.waitWhile (do pure (test (← lineStatus))) rdmTimeout)
      (fun ended t => s.Leads Scene.Waits t ∧ (ended = true → ∃ m time status,
        s.scene.Waits m ∧ t.scene = m.note time (.sampled status) ∧ test status = false)) s := by
  have polls (t : Link H d r) (moved : Moves (· = .interrupt) s t) :
      WP allowed (do pure (test (← lineStatus)))
        (fun isBusy u => Moves (· = .interrupt) t u ∧ (isBusy = false → ∃ m time status,
          s.scene.Waits m ∧ u.scene = m.note time (.sampled status) ∧ test status = false)) t := by
    apply WP.bind (wp_lineStatus (moved.uses.trans used))
    rintro status u ⟨⟨time, looked⟩, used'⟩
    exact ⟨.step_to (.sample time status) rfl looked used',
      fun found => ⟨t.scene, time, status, moved.steps, looked, found⟩⟩
  refine (wp_waitWhile used sound ?_ polls).mono fun _ _ ⟨moves, found, _⟩ =>
    ⟨⟨moves.steps, moves.uses⟩, found⟩
  exact may.imp_right fun ticking =>
    ⟨ticking, by decide, fun _ _ _ looked => looks_of_status looked⟩

/-- A wait for the interface to drain ends, if it does so in time, with a look that
finds it empty. -/
theorem wp_awaitIdle (may : MayWait allowed H d r) (used : s.uses = free)
    (sound : s.scene.Sound) :
    WP allowed (Link.waitWhile queueBusy rdmTimeout)
      (fun finished t => s.Leads (Scene.Writes [] finished) t) s := by
  apply (wp_awaitStatus may used sound fun status => !status.txIdle).mono
  rintro finished t ⟨waits, empty⟩
  refine ⟨?_, waits.uses⟩
  cases finished with
  | true =>
      obtain ⟨m, time, status, waits', looked, idle⟩ := empty rfl
      rw [looked]
      exact .done waits' time (by simpa using idle)
  | false => exact .late waits.scene

/-- An order given within a critical section. -/
theorem wp_direct (used : s.uses = free) (given : Order) :
    WP allowed (Link.critical (Link.order given)) (fun _ t =>
      (∃ time, t.scene = s.scene.order time given) ∧ t.uses = s.uses) s :=
  (wp_critical used).mpr ⟨⟨s.line.now, rfl⟩, Prod.ext rfl (Prod.mk.inj used).2.symm⟩

theorem wp_sendBreak (may : MayWait allowed H d r) (used : s.uses = free)
    (sound : s.scene.Sound) :
    WP allowed sendBreak (fun _ t => s.Leads Scene.Breaks t) s := by
  rw [sendBreak]
  apply WP.bind (wp_direct used _)
  rintro _ t ⟨⟨first, asserted⟩, used₁⟩
  have sound₁ : t.scene.Sound := asserted ▸ sound.order _ _
  apply WP.bind (wp_waitFor may (used₁.trans used) sound₁ _)
  rintro _ u ⟨breaks, used₂⟩
  have sound₂ := breaks.waits.sound sound₁
  apply WP.bind (wp_direct (used₂.trans (used₁.trans used)) _)
  rintro _ v ⟨⟨second, released⟩, used₃⟩
  have sound₃ : v.scene.Sound := released ▸ sound₂.order _ _
  apply (wp_waitFor may (used₃.trans (used₂.trans (used₁.trans used))) sound₃ _).mono
  rintro _ w ⟨marks, used₄⟩
  exact ⟨⟨first, second, asserted ▸ breaks, released ▸ marks⟩,
    used₄.trans (used₃.trans (used₂.trans used₁))⟩

theorem wp_sendBytes (may : MayWait allowed H d r) (bytes : List UInt8) (used : s.uses = free)
    (sound : s.scene.Sound) :
    WP allowed (sendBytes bytes)
      (fun finished t => s.Leads (Scene.Writes bytes finished) t) s := by
  induction bytes generalizing s with
  | nil => exact wp_awaitIdle may used sound
  | cons byte rest ih =>
      rw [sendBytes]
      apply WP.bind (wp_awaitStatus may used sound fun status => !status.txReady)
      rintro room t ⟨⟨waits, used₁⟩, _⟩
      have sound₁ := waits.sound sound
      rw [WP.ite_iff]
      refine ⟨fun _ => ?_, fun _ => ⟨.late waits, used₁⟩⟩
      apply WP.bind (wp_direct (used₁.trans used) _)
      rintro _ u ⟨⟨time, written⟩, used₂⟩
      have sound₂ : u.scene.Sound := written ▸ sound₁.order _ _
      apply (ih (used₂.trans (used₁.trans used)) sound₂).mono
      rintro finished v ⟨writes, used₃⟩
      exact ⟨.byte waits time (written ▸ writes), used₃.trans (used₂.trans used₁)⟩

theorem wp_sendFrame (may : MayWait allowed H d r) (bytes : List UInt8) (withBreak : Bool)
    (used : s.uses = free) (sound : s.scene.Sound) :
    WP allowed (sendFrame bytes withBreak)
      (fun finished t => s.Leads (Scene.Frames bytes withBreak finished) t) s := by
  rw [sendFrame]
  cases withBreak with
  | false =>
      exact (wp_sendBytes may bytes used sound).mono
        fun _ _ writes => ⟨.bare writes.scene, writes.uses⟩
  | true =>
      apply WP.bind (wp_sendBreak may used sound)
      rintro _ t ⟨breaks, used₁⟩
      have sound₁ : t.scene.Sound := by
        obtain ⟨_, _, ⟨first, _⟩, ⟨second, _⟩⟩ := breaks
        exact second.sound ((first.sound (sound.order _ _)).order _ _)
      apply (wp_sendBytes may bytes (used₁.trans used) sound₁).mono
      rintro finished u ⟨writes, used₂⟩
      exact ⟨.broken breaks writes, used₂.trans used₁⟩

end Line

variable {s : Attached H d r}

theorem sending_eq (e : Engine) :
    ((e.direction, e.running) == (Direction.output, true)) = e.sending := by
  obtain ⟨_, _, direction, running, _, _⟩ := e
  cases direction <;> cases running <;> rfl

/-- What an attempt to send a frame makes of a station: nothing at all where a sequencer
streams or the frame is malformed; and otherwise, however it ends, the numbers of the
transactions go on by what it `counts`. -/
inductive Dispatches (frame : Except MessageError (List UInt8)) (withBreak : Bool)
    (spacing : Micros) (counts : UInt8) (s : Attached H d r) :
    Outcome Unit → Attached H d r → Prop where
  | streams (sending : s.link.cell.value.sending = true) :
      Dispatches frame withBreak spacing counts s (.error (.line .streaming)) s
  | malformed {defect : MessageError} (quiet : s.link.cell.value.sending = false)
      (wrong : frame = .error defect) :
      Dispatches frame withBreak spacing counts s (.error (.message defect)) s
  | sends {bytes : List UInt8} {outcome : Outcome Unit} {t : Attached H d r}
      (quiet : s.link.cell.value.sending = false) (right : frame = .ok bytes)
      (delivers : s.link.Leads (·.Delivers (.ok bytes) withBreak spacing outcome ·) t.link)
      (counted : t.station.transaction = s.station.transaction + counts) :
      Dispatches frame withBreak spacing counts s outcome t

section

variable {frame : Except MessageError (List UInt8)} {withBreak : Bool} {spacing : Micros}
variable {counts : UInt8} {outcome : Outcome Unit} {t : Attached H d r}

theorem Dispatches.leads (h : s.Dispatches frame withBreak spacing counts outcome t) :
    s.link.Leads (·.Delivers frame withBreak spacing outcome ·) t.link := by
  cases h with
  | streams sending => exact ⟨.streams sending, rfl⟩
  | malformed quiet wrong => exact ⟨.malformed quiet wrong, rfl⟩
  | sends _ right delivers => exact right ▸ delivers

/-- Sending a frame leaves a sequencer alone that streams. -/
theorem Ready.served_dispatched (h : s.Ready)
    (dispatches : s.Dispatches frame withBreak spacing counts outcome t) :
    Served Step.Kind.IsSteering s.link t.link where
  moves := dispatches.leads.moves fun delivers => delivers.steps h.toSteady h.attached
  attached := dispatches.leads.scene.attached h.toSteady h.attached
  settled := dispatches.leads.scene.settled h.toSteady h.attached
  calm before _ :=
    .of_scene_eq (dispatches.leads.scene.eq_of_sending before) dispatches.leads.uses

end

theorem wp_streaming (used : s.link.uses = free) :
    WP allowed streaming (fun answer t => answer = s.link.cell.value.sending ∧ t = s) s := by
  rw [streaming]
  apply WP.bind (wp_direction used)
  rintro _ t ⟨rfl, rfl⟩
  exact ⟨sending_eq t.link.cell.value, rfl⟩

/-- Where a sequencer streams, an attempt to send is refused; otherwise it goes on. Finding
out leaves no trace. -/
theorem wp_unlessStreaming {α : Type} (used : s.link.uses = free)
    {refused sends : Act (Attached H d r) α} {post : α → Attached H d r → Prop}
    (stays : s.link.cell.value.sending = true → WP allowed refused post s)
    (goes : s.link.cell.value.sending = false → WP allowed sends post s) :
    WP allowed (do if ← streaming then refused else sends) post s := by
  apply WP.bind (wp_streaming used)
  rintro _ _ ⟨rfl, rfl⟩
  rw [WP.ite_iff]
  exact ⟨stays, fun quiet => goes (Bool.eq_false_iff.mpr quiet)⟩

variable [Hardware H]

/-- The spacing is kept to the end of the latest RDM frame that was known when the wait
began. -/
theorem wp_waitSpacing (may : MayWait allowed H d r) (h : s.Ready) (spacing : Micros) :
    WP allowed (waitSpacing spacing)
      (fun _ t => s.link.Leads (Scene.Spaces spacing) t.link) s := by
  rw [waitSpacing, WP.bind_iff, WP.get_iff]
  dsimp only
  rw [WP.bind_iff, wp_onLink]
  apply (wp_foregroundClock h.free h.sound).mono
  rintro now link ⟨moves, served, journal⟩
  -- What the reading tells has passed since any entry of the time that was known.
  have passed (since : Journal) (ending : Entry) (earlier : Journal)
      (known : ending.time = s.link.scene.engine.receiver.counters.rdmReceiveEnd) :
      (elapsed now s.link.counters.rdmReceiveEnd).toNat ≤
        Journal.duration (⟨now, .clockRead⟩ :: served ++ since ++ [ending]) := by
    have tells := Journal.elapsed_le_duration ⟨now, .clockRead⟩ ending (served ++ since)
    rw [known] at tells
    rw [List.cons_append]
    exact tells
  rw [WP.onlyIf_iff]
  constructor
  · intro early
    rw [Checked.subWord_of_le (UInt32.le_of_lt (decide_eq_true_iff.mp early)), WP.bind_iff,
      WP.lift_ok_iff]
    refine wp_onLink.mpr
      ((wp_waitFor may (moves.uses.trans h.free) (moves.sound h.sound) _).mono ?_)
    rintro _ t ⟨⟨waits, lasts⟩, used⟩
    refine ⟨⟨moves.steps.trans waits, fun short => ?_⟩, used.trans moves.uses⟩
    have less := UInt32.lt_iff_toNat_lt.mp (of_decide_eq_true early)
    have rest := UInt32.toNat_sub_of_le _ _ (UInt32.le_of_lt (of_decide_eq_true early))
    obtain ⟨new, journal', lasts⟩ := lasts (by omega)
    refine ⟨new ++ ⟨now, .clockRead⟩ :: served, ?_, fun since ending earlier _ known => ?_⟩
    · rw [journal', List.append_assoc]
      exact congrArg (new ++ ·) journal
    · have before := passed since ending earlier known
      have sum := Journal.duration_add_le_append new
        (⟨now, .clockRead⟩ :: served ++ since ++ [ending])
      rw [List.append_assoc, List.append_assoc, ← List.append_assoc _ since]
      omega
  · intro late
    refine ⟨⟨moves.steps, fun _ => ⟨⟨now, .clockRead⟩ :: served, journal, ?_⟩⟩, moves.uses⟩
    intro since ending earlier _ known
    have enough : spacing.toNat ≤ (elapsed now s.link.counters.rdmReceiveEnd).toNat :=
      UInt32.le_iff_toNat_le.mp (UInt32.not_lt.mp (of_decide_eq_false late))
    exact Nat.le_trans enough (passed since ending earlier known)

/-- The rule of sending a frame. The line is taken, unless the pin refuses; then, however the
waits end, it is handed back, or the pin refuses that. -/
theorem wp_transmit_of (may : MayWait allowed H d r) (h : s.Ready)
    (quiet : s.link.cell.value.sending = false) {bytes : List UInt8} {withBreak : Bool}
    {post : Outcome Unit → Attached H d r → Prop}
    (refused : ∀ refusal t, setDirection .output false s = .ok (.error refusal, t) →
      s.link.Leads (·.Switches .output false (.error refusal) ·) t.link → post (.error refusal) t)
    (taken : ∀ t link finished outcome u, setDirection .output false s = .ok (.ok (), t) →
      s.link.Leads (·.Switches .output false (.ok ()) ·) t.link →
      t.link.Leads (·.Frames bytes withBreak finished ·) link →
      setDirection .input true { t with link } = .ok (outcome, u) →
      link.Leads (·.Switches .input true outcome ·) u.link →
      post (match outcome with
        | .error refusal => .error refusal
        | .ok () => if finished then .ok () else .error (.line .timeout)) u) :
    WP allowed (transmit bytes withBreak) post s := by
  rw [transmit]
  apply WP.bind (wp_setDirection h .output false (by simp [quiet])).ran
  rintro outcome t ⟨ended, takes, used₁⟩
  cases outcome with
  | error refusal => exact refused refusal t ended ⟨takes, used₁⟩
  | ok done =>
      have ready := h.switched ⟨takes, used₁⟩
      dsimp only
      rw [WP.bind_iff, wp_onLink]
      refine (wp_sendFrame may bytes withBreak ready.free ready.sound).mono ?_
      rintro finished link ⟨frames, used₂⟩
      obtain ⟨_, steady, attached⟩ := Scene.Transmits.framed takes frames h.toSteady h.attached
      have ready' : Ready { t with link } :=
        { steady with free := used₂.trans ready.free, attached }
      have standing := (frames.steps (Scene.Transmits.taken takes)).standing_eq
        (by simp [Step.Kind.IsManual])
      have quiet' : link.cell.value.sending = false :=
        ((Scene.Transmits.taken takes).of_standing standing).quiet
      apply WP.bind (wp_setDirection ready' .input true (by simp [quiet'])).ran
      rintro outcome' u ⟨ended', returns⟩
      have holds := taken t link finished outcome' u ended ⟨takes, used₁⟩ ⟨frames, used₂⟩ ended'
        returns
      cases outcome' with
      | error refusal => exact holds
      | ok done' => exact holds

/-- However the waits end, the line is handed back or the pin has refused. -/
theorem wp_transmit (may : MayWait allowed H d r) (h : s.Ready)
    (quiet : s.link.cell.value.sending = false) (bytes : List UInt8) (withBreak : Bool) :
    WP allowed (transmit bytes withBreak)
      (fun outcome t => s.link.Leads (·.Transmits bytes withBreak outcome ·) t.link) s := by
  apply wp_transmit_of may h quiet
  · rintro refusal t _ ⟨takes, used⟩
    exact ⟨.refused takes, used⟩
  · rintro t link finished outcome u _ ⟨takes, used₁⟩ ⟨frames, used₂⟩ _ ⟨returns, used₃⟩
    have used := used₃.trans (used₂.trans used₁)
    cases outcome with
    | error refusal => exact ⟨.kept takes frames returns, used⟩
    | ok done => exact ⟨.returned takes frames returns, used⟩

/-- A frame is sent behind a wait for the spacing, where no sequencer streams. What it
counts has been counted before. -/
theorem wp_sendSpaced (may : MayWait allowed H d r) (h : s.Ready)
    (quiet : s.link.cell.value.sending = false) (spacing : Micros) (bytes : List UInt8)
    (withBreak : Bool) :
    WP allowed (do waitSpacing spacing; transmit bytes withBreak) (fun outcome t =>
      s.link.Leads (·.Delivers (.ok bytes) withBreak spacing outcome ·) t.link ∧
        t.station.transaction = s.station.transaction) s := by
  have keeps : Keeps Station.transaction
      (do waitSpacing spacing; transmit bytes withBreak : Act (Attached H d r) _) :=
    (Keeps.waitSpacing spacing).bind fun _ => .transmit (fun _ _ _ => rfl) bytes withBreak
  have delivers : WP allowed (do waitSpacing spacing; transmit bytes withBreak) (fun outcome t =>
      s.link.Leads (·.Delivers (.ok bytes) withBreak spacing outcome ·) t.link) s := by
    apply WP.bind (wp_waitSpacing may h spacing)
    rintro _ t ⟨spaces, used⟩
    obtain ⟨ready, standing⟩ := h.keeps ⟨spaces.waits, used⟩ Scene.Waits.calm
    have quiet' : t.link.cell.value.sending = false :=
      (Scene.sending_of_standing standing).trans quiet
    apply (wp_transmit may ready quiet' bytes withBreak).mono
    rintro outcome u ⟨transmits, used'⟩
    exact ⟨.sends quiet rfl spaces transmits, used'.trans used⟩
  exact delivers.ran.mono fun _ _ ⟨ended, leads⟩ => ⟨leads, (keeps s).elim ended⟩

/-- The rule of sending a message: it is refused where a sequencer streams or it is malformed,
and otherwise stamped, counted and sent. -/
theorem wp_sendMessage_of {message : List UInt8} {spacing : Micros} (used : s.link.uses = free)
    {post : Outcome UInt8 → Attached H d r → Prop}
    (streams : s.link.cell.value.sending = true → post (.error (.line .streaming)) s)
    (malformed : ∀ defect, s.link.cell.value.sending = false →
      Message.validate message = .error defect → post (.error (.message defect)) s)
    (sends : ∀ sum, s.link.cell.value.sending = false → Message.validate message = .ok sum →
      WP allowed (do
          waitSpacing spacing
          transmit (Message.packet (message.set transactionOffset s.station.transaction)) true)
        (fun outcome t => post (outcome.map fun _ => s.station.transaction) t)
        { s with station := { s.station with transaction := s.station.transaction + 1 } }) :
    WP allowed (sendMessage message spacing) post s := by
  refine wp_unlessStreaming used streams fun quiet => ?_
  simp only [WP.bind_iff, WP.get_iff]
  cases valid : Message.validate message with
  | error defect =>
      rw [Message.prepare_of_defect valid]
      exact malformed defect quiet valid
  | ok sum =>
      rw [Message.prepare_of_valid valid]
      have short : (message.set transactionOffset s.station.transaction).length ≤ messageMax := by
        rw [List.length_set]
        exact Message.length_of_validate valid
      simp only [WP.bind_iff, Message.withChecksum_ok short, WP.lift_ok_iff, wp_update,
        WP.pure_iff]
      exact WP.bind_iff.mp (sends sum quiet valid)

/-- A message is sent with the next transaction number, which is the answer. The station
waits only for a message that it is to send. -/
theorem wp_sendMessage {message : List UInt8} (may : s.link.cell.value.sending = false →
      ∀ sum, Message.validate message = .ok sum → MayWait allowed H d r)
    (h : s.Ready) (spacing : Micros) :
    WP allowed (sendMessage message spacing) (fun answer t =>
      ∃ outcome : Outcome Unit, answer = outcome.map (fun _ => s.station.transaction) ∧
        s.Dispatches ((Message.validate message).map fun _ => Message.packet
          (message.set transactionOffset s.station.transaction)) true spacing 1 outcome t) s := by
  apply wp_sendMessage_of h.free
  · exact fun sending => ⟨.error _, rfl, .streams sending⟩
  · exact fun defect quiet wrong => ⟨.error _, rfl, .malformed quiet (by rw [wrong]; rfl)⟩
  · intro sum quiet valid
    have ready : Ready { s with station :=
        { s.station with transaction := s.station.transaction + 1 } } := h.of_scene_eq rfl rfl
    apply (wp_sendSpaced (may quiet sum valid) ready quiet spacing _ true).mono
    rintro outcome t ⟨delivers, counted⟩
    exact ⟨outcome, rfl, .sends quiet (by rw [valid]; rfl) delivers counted⟩

/-- The rule of sending a response, which is not counted. -/
theorem wp_sendResponse_of {message : List UInt8} (used : s.link.uses = free)
    {post : Outcome Unit → Attached H d r → Prop}
    (streams : s.link.cell.value.sending = true → post (.error (.line .streaming)) s)
    (malformed : ∀ defect, s.link.cell.value.sending = false →
      Message.validate message = .error defect → post (.error (.message defect)) s)
    (sends : ∀ sum, s.link.cell.value.sending = false → Message.validate message = .ok sum →
      WP allowed (do waitSpacing responderSpacing; transmit (Message.packet message) true) post s) :
    WP allowed (sendResponse message) post s := by
  refine wp_unlessStreaming used streams fun quiet => ?_
  cases valid : Message.validate message with
  | error defect => exact malformed defect quiet valid
  | ok sum =>
      rw [Message.sum_of_validate valid]
      simp only [WP.bind_iff, Message.withChecksum_ok (Message.length_of_validate valid),
        WP.lift_ok_iff]
      exact WP.bind_iff.mp (sends sum quiet valid)

/-- A response is sent as it is. -/
theorem wp_sendResponse {message : List UInt8} (may : s.link.cell.value.sending = false →
      ∀ sum, Message.validate message = .ok sum → MayWait allowed H d r) (h : s.Ready) :
    WP allowed (sendResponse message) (fun outcome t =>
      s.Dispatches ((Message.validate message).map fun _ => Message.packet message)
        true responderSpacing 0 outcome t) s := by
  apply wp_sendResponse_of h.free
  · exact .streams
  · exact fun defect quiet wrong => .malformed quiet (by rw [wrong]; rfl)
  · intro sum quiet valid
    apply (wp_sendSpaced (may quiet sum valid) h quiet responderSpacing _ true).mono
    rintro outcome t ⟨delivers, counted⟩
    exact .sends quiet (by rw [valid]; rfl) delivers (counted.trans (UInt8.add_zero _).symm)

/-- An answer to a discovery request is sent without a break. -/
theorem wp_sendDiscoveryResponse (may : s.link.cell.value.sending = false → MayWait allowed H d r)
    (h : s.Ready) (uid : Uid) :
    WP allowed (sendDiscoveryResponse uid) (fun outcome t =>
      s.Dispatches (.ok (Discovery.encode uid)) false responderSpacing 0 outcome t) s := by
  refine wp_unlessStreaming h.free (fun sending => .streams sending) fun quiet => ?_
  apply (wp_sendSpaced (may quiet) h quiet responderSpacing (Discovery.encode uid) false).mono
  rintro outcome t ⟨delivers, counted⟩
  exact .sends quiet rfl delivers (counted.trans (UInt8.add_zero _).symm)

end Dmx512.Attached
