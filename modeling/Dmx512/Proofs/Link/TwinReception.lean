import Dmx512.Proofs.Link.Twins

/-!
# Reception on twin hardware

Two links side by side serve their receive queues and the timeouts of their receivers alike. Where
they listen, they take the same from their queues, respond alike to it and publish the same frames.
Where they do not, they discard what is queued, which may be different, without a reading of the
clock.
-/

namespace Dmx512.Link

open Act Standard

variable {H : Type} [Hardware H] {d r : Nat} {twins : Twins H} {listening : Bool}
variable {standing : Standing} {e e' : Engine}

/-- Links side by side, of which the engines are known. -/
abbrev BesideAt (twins : Twins H) (listening : Bool) (standing : Standing) (e e' : Engine)
    (s s' : Link H d r) : Prop :=
  s.Beside twins listening standing s' ∧ s.cell.value = e ∧ s'.cell.value = e'

/-- How far the end of the latest RDM frame is ahead, once one response more was given. -/
theorem latestEnd_ahead {offset ending ending' : Micros} {journal : Journal} (time : Micros)
    (known : ending' = ending + journal.dating offset) :
    (∀ frame, latestEnd ending' (time + offset) (some frame) =
      latestEnd ending time (some frame) +
        Journal.dating offset (⟨time, .published frame⟩ :: journal)) ∧
    latestEnd ending' (time + offset) none =
      latestEnd ending time none + journal.dating offset := by
  refine ⟨fun frame => ?_, known⟩
  cases frame with
  | dmx => exact known
  | rdm => rfl

namespace Matches

theorem knowEngine : Pairs (Beside twins listening standing)
    (Link.getEngine : Act (Link H d r) Engine) Link.getEngine fun e e' s s' =>
      e.Beside twins.offset standing e' ∧ BesideAt twins listening standing e e' s s' :=
  fun _ _ h => ⟨h.engine, h, rfl, rfl⟩

/-- What leaves both engines as they are does so where they are known. -/
theorem at_engine {α : Type} {act act' : Act (Link H d r) α} {R : α → α → Prop}
    (h : Matches twins listening standing act act' R)
    (kept : ∀ s : Link H d r, s.cell.value = e →
      WP (fun _ => True) act (fun _ t => t.cell.value = e) s)
    (kept' : ∀ s : Link H d r, s.cell.value = e' →
      WP (fun _ => True) act' (fun _ t => t.cell.value = e') s) :
    Abreast (BesideAt twins listening standing e e') act act' R :=
  h.along kept kept'

theorem setWatchdog (deadline : Option Micros) : Matches twins listening standing
    (Link.setWatchdog deadline : Act (Link H d r) Unit)
    (Link.setWatchdog (deadline.map (· + twins.offset))) fun _ _ => True := by
  cases deadline with
  | none => exact order (.cancelAlarm .receiveTimeout) fun _ => rfl
  | some deadline => exact order (.setAlarm .receiveTimeout deadline) fun _ => rfl

theorem syncWatchdog : Matches twins listening standing
    (Link.syncWatchdog : Act (Link H d r) Unit) Link.syncWatchdog fun _ _ => True := by
  rw [Link.syncWatchdog]
  apply getEngine.bind
  intro e e' engine
  have moved : Function.Injective (· + twins.offset) :=
    fun a b same => (UInt32.add_left_inj _).mp same
  refine Pairs.ite ?_ (fun _ => Abreast.pure trivial) fun _ => ?_
  · rw [engine.receiver.deadline, engine.watchdog]
    exact (Option.map_injective moved).eq_iff.symm
  · rw [engine.receiver.deadline]
    exact (setWatchdog _).next fun _ _ h =>
      ⟨trivial, h.withEngine { h.engine with watchdog := h.engine.receiver.deadline } rfl rfl⟩

theorem signalTime (signal : Signal) : Matches twins listening standing
    (Link.signalTime signal : Act (Link H d r) Micros) (Link.signalTime signal)
    fun now now' => now' = now + twins.offset := by
  cases signal with
  | damaged => exact now
  | lineBreak | byte => exact readClock

/-- Receivers that respond alike keep their links side by side. -/
theorem respond {time : Micros} {served served' : Receiver × Option Frame}
    (alike : Receiver.Keep twins.offset served served') (wellFormed : served.1.WellFormed)
    (ending : served.1.counters.rdmReceiveEnd =
      latestEnd e.receiver.counters.rdmReceiveEnd time served.2)
    (ending' : served'.1.counters.rdmReceiveEnd =
      latestEnd e'.receiver.counters.rdmReceiveEnd (time + twins.offset) served'.2) :
    Pairs (BesideAt twins listening standing e e')
      (do
        setReceiver served.1
        (publish time served.2 : Act (Link H d r) Unit))
      (do
        setReceiver served'.1
        publish (time + twins.offset) served'.2)
      fun _ _ => Beside twins listening standing := by
  rintro s s' ⟨h, rfl, rfl⟩
  obtain ⟨receiver, frame⟩ := served
  obtain ⟨receiver', frame'⟩ := served'
  obtain ⟨rfl, ahead⟩ : frame' = frame ∧ receiver.Ahead twins.offset receiver' := alike
  obtain ⟨shown, silent⟩ := latestEnd_ahead time h.ending
  have engine : Engine.Beside twins.offset standing { s.cell.value with receiver }
      { s'.cell.value with receiver := receiver' } :=
    { h.engine with receiver := ahead, wellFormed }
  cases frame' with
  | none => exact { h with engine, ending := ending'.trans (silent.trans (by rw [← ending])) }
  | some frame =>
      have journal := h.journal.cons time (.published frame) rfl
      have dated := ending'.trans ((shown frame).trans (by rw [← ending]))
      cases frame with
      | dmx frame =>
          exact { h with
            engine, journal, ending := dated
            dmxStore := congrArg (·.push frame) h.dmxStore }
      | rdm frame =>
          exact { h with
            engine, journal, ending := dated
            rdmStore := congrArg (·.push frame) h.rdmStore }

theorem hear (signal : Signal) : Matches twins listening standing
    (Link.hear signal : Act (Link H d r) Unit) (Link.hear signal) fun _ _ => True := by
  rw [Link.hear]
  apply Pairs.bind_known knowEngine
  intro e e' engine
  refine Pairs.ite (by rw [engine.receiving.1, engine.receiving.2]) (fun _ => ?_) fun _ _ _ h =>
    ⟨trivial, h.1⟩
  have still (s : Link H d r) {e : Engine} (known : s.cell.value = e) :
      WP (fun _ => True) (Link.signalTime signal) (fun _ t => t.cell.value = e) s := by
    cases signal <;> exact known
  apply Pairs.bind_known ((signalTime signal).at_engine (fun s => still s) fun s => still s)
  rintro time _ rfl
  have noted : Matches twins listening standing
      (Link.note time (.heard signal) : Act (Link H d r) Unit)
      (Link.note (time + twins.offset) (.heard signal)) fun _ _ => True :=
    note (.heard signal) rfl rfl fun _ => rfl
  apply Pairs.bind_known (noted.at_engine (fun s known => known) fun s known => known)
  intro _ _ _
  apply Pairs.bind_known (Pairs.lift (engine.receiver.hear engine.wellFormed signal time).ran)
  rintro served served' ⟨alike, heard, heard'⟩
  refine Pairs.mono (respond alike ?_ ?_ ?_) fun _ _ _ _ h => ⟨trivial, h⟩
  · have attended : e.receiver.attend (.signal signal) time = .ok served := heard
    exact .of_attend engine.wellFormed attended
  · exact Receiver.dates_hear signal _ _ heard
  · exact Receiver.dates_hear signal _ _ heard'

theorem timeOut : Matches twins listening standing
    (Link.timeOut : Act (Link H d r) Unit) Link.timeOut fun _ _ => True := by
  rw [Link.timeOut]
  apply readClock.bind
  rintro time _ rfl
  apply (note .receiveAlarm rfl rfl fun _ => rfl).next
  apply Pairs.bind_known knowEngine
  intro e e' engine
  apply Pairs.bind_known (Pairs.lift (engine.receiver.onTimeout time).ran)
  rintro ⟨receiver, frame⟩ ⟨receiver', frame'⟩ ⟨alike, timed, timed'⟩
  dsimp only
  rw [← bind_assoc (setReceiver receiver), ← bind_assoc (setReceiver receiver')]
  apply Pairs.bind
  · refine respond alike ?_ ?_ ?_
    · have attended : e.receiver.attend .timeout time = .ok (receiver, frame) := timed
      exact .of_attend engine.wellFormed attended
    · exact Receiver.dates_onTimeout _ _ timed
    · exact Receiver.dates_onTimeout _ _ timed'
  · intro _ _
    apply (setWatchdog none).next
    have disarmed : Matches twins listening standing
        (modifyEngine fun e => { e with watchdog := none } : Act (Link H d r) Unit)
        (modifyEngine fun e => { e with watchdog := none }) fun _ _ => True :=
      fun _ _ h => ⟨trivial, h.withEngine { h.engine with watchdog := rfl } rfl rfl⟩
    exact disarmed.next syncWatchdog

end Matches

theorem wp_hear_deaf {s : Link H d r} (deaf : s.cell.value.receiving = false) {signal : Signal}
    {post : Unit → Link H d r → Prop} :
    WP (fun _ => False) (hear signal) post s ↔ post () s := by
  rw [hear, WP.bind_iff, wp_getEngine, WP.ite_iff]
  simp [deaf]

/-- A link that does not listen discards what is queued. -/
theorem wp_drainReceive_deaf {s : Link H d r} (deaf : s.cell.value.receiving = false)
    (limit : Nat) : WP (fun _ => False) (drainReceive limit) (fun _ t => ∃ journal : Journal,
      t = { s with line := ⟨Hardware.discard limit s.line.hardware, journal⟩ } ∧
        journal.deeds = s.line.journal.deeds ∧ journal.rdmEnd? = s.line.journal.rdmEnd?) s := by
  induction limit generalizing s with
  | zero => exact ⟨_, rfl, rfl, rfl⟩
  | succ limit ih =>
      rw [drainReceive, WP.bind_iff, wp_onLine]
      change WP _ (if (Hardware.sample s.line.hardware).1.breakDetected then _ else
        if (Hardware.sample s.line.hardware).1.dataReady then _ else _) _ _
      rw [WP.ite_iff, WP.ite_iff, Hardware.discard]
      dsimp only
      refine ⟨fun broken => ?_, fun whole => ⟨fun ready => ?_, fun idle => ?_⟩⟩
      · rw [if_pos (.inl broken), WP.bind_iff, wp_onLine]
        refine WP.bind_iff.mpr ((wp_hear_deaf ?_).mpr (ih ?_)) <;> exact deaf
      · rw [if_pos (.inr ready), WP.bind_iff, wp_onLine]
        refine WP.bind_iff.mpr ((wp_hear_deaf ?_).mpr (ih ?_)) <;> exact deaf
      · rw [if_neg (not_or.mpr ⟨whole, idle⟩)]
        exact ⟨_, rfl, rfl, rfl⟩

namespace Matches

/-- What waits in the receive queues is served alike where it is listened to, and else it is
discarded. -/
theorem drainReceive (limit : Nat) : Matches twins standing.listens standing
    (Link.drainReceive limit : Act (Link H d r) Unit) (Link.drainReceive limit)
    fun _ _ => True := by
  cases listens : standing.listens with
  | true =>
      induction limit with
      | zero => exact Abreast.pure trivial
      | succ limit ih =>
          rw [Link.drainReceive]
          apply sample_listening.bind
          rintro status _ rfl
          refine Pairs.ite Iff.rfl (fun _ => ?_) fun _ =>
            Pairs.ite Iff.rfl (fun _ => ?_) fun _ => Abreast.pure trivial
          · exact take_listening.bind fun _ _ _ => (hear .lineBreak).next ih
          · apply take_listening.bind
            rintro byte _ rfl
            exact (hear _).next ih
  | false =>
      intro s s' h
      have deaf := h.engine.receiving
      rw [listens] at deaf
      obtain ⟨_, _, drained, journal, rfl, deeds, dated⟩ :=
        (wp_drainReceive_deaf deaf.1 limit).exists_ok
      obtain ⟨_, _, drained', journal', rfl, deeds', _⟩ :=
        (wp_drainReceive_deaf deaf.2 limit).exists_ok
      rw [drained, drained']
      refine ⟨trivial, h.withLine (twins.discards limit h.hardware) ?_ dated⟩
      change Journal.deeds journal' = (Journal.deeds journal).map _
      rw [deeds, deeds', h.journal]

end Matches

end Dmx512.Link
