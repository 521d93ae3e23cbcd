import Dmx512.Proofs.Node.Accounting
import Dmx512.Proofs.Station.Sampling

/-!
# The update rate of a station

A station samples its counters when it is asked for statistics or for the update rate, and at no
other time. Whatever happens in between, the rate that it answers is that of the last window which
its calls have closed, in whole packets per second, though the clock and the packet counter wrap.
-/

namespace Dmx512

open Act Standard

structure SampleCall where
  /-- What the clock showed. -/
  reading : Micros
  /-- How many DMX packets had been counted since power-up. -/
  packets : Nat
  /-- The rate that was answered. -/
  rate : UInt32
  deriving DecidableEq, Repr

/-- A call was made at a moment: the clock showed its time, as far as a word can. -/
def SampleCall.At (call : SampleCall) (now : Moment) : Prop :=
  call.reading = UInt32.ofNat now.time ∧ call.packets = now.packets

/-- What was shown and counted at the calls of a list tells that they were made at some moments. -/
theorem SampleCall.made {told : List SampleCall} {moments : List Moment}
    (same : told.map (fun call => (call.reading, call.packets)) =
      moments.map fun now => (UInt32.ofNat now.time, now.packets)) :
    List.Forall₂ SampleCall.At told moments := by
  rw [← List.forall₂_eq_eq_eq, List.forall₂_map_left_iff, List.forall₂_map_right_iff] at same
  exact same.imp fun _ _ shown => Prod.mk.inj shown

/-- The update rate that an operation answers. -/
def Operation.rate? : Operation → Answer → Option UInt32
  | .statistics, .statistics snapshot => some snapshot.updatesPerSecond
  | .updatesPerSecond, .rate rate => some rate
  | _, _ => none

/-- Only what takes a sample answers a rate. -/
theorem Operation.rate?_eq_none {operation : Operation} (other : ¬ operation.Samples)
    (answer : Answer) : operation.rate? answer = none := by
  cases operation <;> first | rfl | exact absurd trivial other

namespace Node

open Link

variable {H : Type} [Hardware H] {d r : Nat} {s t u : Node H d r} {before : List Moment}

def lastReading (s : Node H d r) : Micros := (s.link.line.journal.head?.map Entry.time).getD 0

/-- Carry out an action, and tell the call for a sample that it was. -/
def tellCall (s : Node H d r) : Action H → Checked (Option SampleCall × Node H d r)
  | .disturb change => pure (none, s.disturb change)
  | .perform operation => do
    let (answer, t) ← perform operation s
    pure ((operation.rate? answer).map fun rate =>
      { reading := t.lastReading, packets := t.packets dmxStartCode, rate }, t)

def calls (s : Node H d r) : List (Action H) → Checked (List SampleCall × Node H d r)
  | [] => pure ([], s)
  | action :: rest => do
    let (call, m) ← s.tellCall action
    let (later, t) ← m.calls rest
    pure (call.toList ++ later, t)

/-- What is told does not matter to what happens. -/
theorem tellCall_node (s : Node H d r) (action : Action H) :
    (s.tellCall action).map Prod.snd = s.act action := by
  cases action with
  | disturb change => rfl
  | perform operation =>
      rw [tellCall, act]
      cases perform operation s <;> rfl

theorem act_of_tellCall {action : Action H} {call : Option SampleCall}
    (told : s.tellCall action = .ok (call, t)) : s.act action = .ok t := by
  rw [← tellCall_node, told]
  rfl

theorem calls_cons {action : Action H} {rest : List (Action H)} {told : List SampleCall}
    (ended : s.calls (action :: rest) = .ok (told, t)) :
    ∃ call m later, s.tellCall action = .ok (call, m) ∧ m.calls rest = .ok (later, t) ∧
      told = call.toList ++ later := by
  rw [calls] at ended
  obtain ⟨⟨call, m⟩, first, others⟩ := Checked.bind_ok ended
  obtain ⟨⟨later, u⟩, went, left⟩ := Checked.bind_ok others
  cases left
  exact ⟨call, m, later, first, went, rfl⟩

/-- Whatever run ends, its calls can be told. -/
theorem calls_of_run {actions : List (Action H)} (ran : s.run actions = .ok t) :
    ∃ calls, s.calls actions = .ok (calls, t) := by
  induction actions generalizing s with
  | nil =>
      cases ran
      exact ⟨[], rfl⟩
  | cons action rest ih =>
      obtain ⟨m, acted, ran'⟩ := run_cons ran
      obtain ⟨later, told'⟩ := ih ran'
      rw [← tellCall_node] at acted
      obtain ⟨⟨call, _⟩, told, rfl⟩ := Checked.map_ok acted
      refine ⟨call.toList ++ later, ?_⟩
      rw [calls, told]
      simp only [Checked.ok_bind, told']
      rfl

/-- What is told of a run is told of where it leads. -/
theorem run_of_calls {actions : List (Action H)} {told : List SampleCall}
    (ended : s.calls actions = .ok (told, t)) : s.run actions = .ok t := by
  induction actions generalizing s told with
  | nil =>
      cases ended
      rfl
  | cons action rest ih =>
      obtain ⟨call, m, later, first, went, _⟩ := calls_cons ended
      rw [run, act_of_tellCall first]
      exact ih went

/-- The station of a node has taken samples at the moments `before`. -/
structure Sampled (s : Node H d r) (before : List Moment) : Prop where
  holds : ∃ station, s.station = some station ∧ station.view.Holds (windowsOf before)
  ordered : before.Pairwise Moment.Before
  counted : ∀ m ∈ before, m.packets ≤ s.packets dmxStartCode

/-- No operation counts a packet back. -/
theorem Sound.packets_le_of_perform (h : s.Sound) {operation : Operation} {answer : Answer}
    (performed : perform operation s = .ok (answer, t)) (code : UInt8) :
    s.packets code ≤ t.packets code := by
  have ran : s.run [.perform operation] = .ok t := by
    rw [Node.run, act_of_perform performed]
    rfl
  exact h.packets_le_of_run ran code

/-- What takes a sample ends, with the counters as the reading of the clock leaves them. -/
theorem Sound.wp_samples (h : s.Sound) {station : Station} (present : s.station = some station)
    {operation : Operation} (samples : operation.Samples) :
    WP (fun _ => False) (perform operation) (fun answer t => ∃ view,
      station.view.sample t.link.counters t.lastReading = .ok view ∧
      t.station = some { station with view } ∧ operation.rate? answer = some view.rate) s := by
  cases operation with
  | statistics | updatesPerSecond =>
      rw [perform, wp_onStation_some present]
      simp only [WP.bind_iff, Attached.statistics, Attached.updatesPerSecond]
      apply Attached.wp_sample
      apply (Link.wp_foregroundClock h.free h.sound).mono
      rintro now link ⟨_, served, journal⟩ view sampled
      refine ⟨view, ?_, rfl, rfl⟩
      rw [lastReading, journal]
      exact sampled
  | _ => exact samples.elim

/-- A sample is taken at the moment of the call, and the rate behind it is answered. -/
theorem Sampled.perform (sampled : s.Sampled before) (reachable : s.Reachable)
    {operation : Operation} (samples : operation.Samples) {answer : Answer}
    (performed : perform operation s = .ok (answer, t)) :
    ∃ rate, operation.rate? answer = some rate ∧ ∀ now : Moment,
      t.lastReading = UInt32.ofNat now.time → t.packets dmxStartCode = now.packets →
      (∀ m ∈ before, m.time ≤ now.time) →
      (∀ span ∈ (windowsOf (before ++ [now])).closed, span.Fits) →
      t.Sampled (before ++ [now]) ∧ rate.toNat = (windowsOf (before ++ [now])).rate := by
  obtain ⟨station, present, holds⟩ := sampled.holds
  obtain ⟨view, taken, kept, answered⟩ :=
    (reachable.sound.wp_samples present samples).elim performed
  refine ⟨view.rate, answered, fun now reading counted later fits => ?_⟩
  have more : s.packets dmxStartCode ≤ now.packets := by
    rw [← counted]
    exact reachable.sound.packets_le_of_perform performed dmxStartCode
  have behind : ∀ m ∈ before, m.Before now := fun m among =>
    ⟨later m among, (sampled.counted m among).trans more⟩
  rw [reading] at taken
  rw [windowsOf_concat] at fits ⊢
  have tells := (reachable.act (act_of_perform performed)).dmxPackets_eq
  rw [counted] at tells
  have holds' := holds.sample (fun start opened => behind start (mem_of_opened opened)) fits tells
    taken
  refine ⟨⟨⟨_, kept, windowsOf_concat before now ▸ holds'⟩, ?_, ?_⟩, holds'.rate⟩
  · exact List.pairwise_append.mpr ⟨sampled.ordered, List.pairwise_singleton _ _,
      fun m among _ last => List.mem_singleton.mp last ▸ behind m among⟩
  · intro m among
    rw [counted]
    rcases List.mem_append.mp among with earlier | last
    · exact (behind m earlier).2
    · obtain rfl := List.mem_singleton.mp last
      exact Nat.le_refl _

/-- What takes no sample leaves what the station holds alone, until it detaches. -/
theorem Sampled.perform_of_not (sampled : s.Sampled before) (h : s.Sound) {operation : Operation}
    (other : ¬ operation.Samples) (stays : operation ≠ .detach) {answer : Answer}
    (performed : Node.perform operation s = .ok (answer, t)) : t.Sampled before := by
  obtain ⟨station, present, holds⟩ := sampled.holds
  have more : s.packets dmxStartCode ≤ t.packets dmxStartCode :=
    h.packets_le_of_perform performed dmxStartCode
  refine ⟨?_, sampled.ordered, fun m among => (sampled.counted m among).trans more⟩
  by_cases attaches : ∃ config, operation = .attach config
  · -- Where a station is there already, another one is refused.
    obtain ⟨config, rfl⟩ := attaches
    cases (h.occupied present config).symm.trans performed
    exact ⟨station, present, holds⟩
  · have unattached (config : Config) : operation ≠ .attach config :=
      fun same => attaches ⟨config, same⟩
    have kept := wp_perform_keeps (s := s) (fun station => (station.view.window, station.view.rate))
      (fun _ _ _ => rfl) (fun _ _ _ => rfl) (fun samples => absurd samples other)
      (fun _ _ _ => rfl) (fun _ _ _ _ _ => rfl) (fun _ => ⟨unattached, fun _ _ => rfl⟩) stays
    have same := kept.elim performed
    rw [present] at same
    obtain ⟨station', present', seen⟩ := Option.map_eq_some_iff.mp same
    obtain ⟨window, rate⟩ := Prod.mk.inj seen
    have answers := congrArg UInt32.toNat rate
    exact ⟨station', present', window.trans holds.window, answers.trans holds.rate⟩

/-- One action: either it is no call, and the station holds what it held, or it samples at the
moment of the call. -/
theorem Sampled.tellCall (sampled : s.Sampled before) (reachable : s.Reachable)
    {action : Action H} (stays : action ≠ .perform .detach) {call : Option SampleCall}
    (told : s.tellCall action = .ok (call, t)) :
    (call = none ∧ t.Sampled before) ∨ ∃ own, call = some own ∧ ∀ now : Moment, own.At now →
      (∀ m ∈ before, m.time ≤ now.time) →
      (∀ span ∈ (windowsOf (before ++ [now])).closed, span.Fits) →
      t.Sampled (before ++ [now]) ∧ own.rate.toNat = (windowsOf (before ++ [now])).rate := by
  cases action with
  | disturb change =>
      cases told
      exact .inl ⟨rfl, sampled.holds, sampled.ordered, sampled.counted⟩
  | perform operation =>
      rw [Node.tellCall] at told
      obtain ⟨⟨answer, u⟩, performed, left⟩ := Checked.bind_ok told
      cases left
      by_cases samples : operation.Samples
      · obtain ⟨rate, answered, tells⟩ := sampled.perform reachable samples performed
        refine .inr ⟨_, congrArg (Option.map _) answered, ?_⟩
        rintro now ⟨reading, counted⟩ later fits
        exact tells now reading counted later fits
      · refine .inl ⟨by rw [operation.rate?_eq_none samples]; rfl, ?_⟩
        exact sampled.perform_of_not reachable.sound samples
          (fun same => stays (congrArg Action.perform same)) performed

/-- Along a run the station holds the windows of the calls so far, and answers their rate. -/
theorem Sampled.calls (sampled : s.Sampled before) (reachable : s.Reachable)
    {actions : List (Action H)} (stays : .perform .detach ∉ actions) {told : List SampleCall}
    (ended : s.calls actions = .ok (told, t)) {moments : List Moment}
    (made : List.Forall₂ SampleCall.At told moments)
    (ordered : (before ++ moments).Pairwise fun m n => m.time ≤ n.time)
    (fits : ∀ span ∈ (windowsOf (before ++ moments)).closed, span.Fits) :
    t.Sampled (before ++ moments) ∧ ∀ n call, told[n]? = some call →
      call.rate.toNat = (windowsOf (before ++ moments.take (n + 1))).rate := by
  induction actions generalizing s before told moments with
  | nil =>
      cases ended
      cases made
      rw [List.append_nil]
      exact ⟨sampled, nofun⟩
  | cons action rest ih =>
      rw [List.mem_cons, not_or] at stays
      obtain ⟨call, m, later, first, went, rfl⟩ := calls_cons ended
      have reachable' : m.Reachable := reachable.act (act_of_tellCall first)
      rcases sampled.tellCall reachable (Ne.symm stays.1) first with
        ⟨rfl, sampled'⟩ | ⟨own, rfl, tells⟩
      · exact ih sampled' reachable' stays.2 went made ordered fits
      · cases made with
        | @cons _ now _ more at_ made' =>
            have split : before ++ now :: more = before ++ [now] ++ more := by simp
            rw [split] at ordered fits ⊢
            have until_ := (List.pairwise_append.mp ordered).1
            have behind := (List.pairwise_append.mp until_).2.2
            obtain ⟨sampled', rate⟩ := tells now at_
              (fun m among => behind m among now (List.mem_singleton.mpr rfl))
              fun span closed => fits span ((closed_prefix_append _ more).mem closed)
            obtain ⟨sampled'', rates⟩ := ih sampled' reachable' stays.2 went made' ordered fits
            refine ⟨sampled'', fun n call among => ?_⟩
            cases n with
            | zero =>
                obtain rfl := Option.some.inj among
                exact rate
            | succ n =>
                rw [List.take_succ_cons, ← List.singleton_append, ← List.append_assoc]
                exact rates n call among

/-- The update rate. Let anything happen at a station from where it attached until it detaches, the
counters being reset or not. What samples always ends and answers a rate. The calls that sampled
were made at some times, which did not run back, and of which the clock showed as much as a word
holds; if no window that they close outgrows a word in time or in packets, each call answers the
rate of the last window that was closed by then, and 0 where none was, and the station holds where
the open one started. The windows tile the time since the first call, and every packet that was
counted since is counted in one of them. -/
theorem Reachable.samples_updates (reachable : s.Reachable) {config : Config}
    (attached : perform (.attach config) s = .ok (.done, t)) {actions : List (Action H)}
    (stays : .perform .detach ∉ actions) (ran : t.run actions = .ok u) :
    (∀ operation : Operation, operation.Samples → ∃ answer v rate,
      perform operation u = .ok (answer, v) ∧ operation.rate? answer = some rate) ∧
    ∃ told, t.calls actions = .ok (told, u) ∧
      ∀ moments, List.Forall₂ SampleCall.At told moments →
        (moments.Pairwise fun m n => m.time ≤ n.time) →
        (∀ span ∈ (windowsOf moments).closed, span.Fits) →
        (∀ n call, told[n]? = some call →
          call.rate.toNat = (windowsOf (moments.take (n + 1))).rate) ∧
        u.station.map (·.view.window) = some ((windowsOf moments).opened.map Sampler.noted) ∧
        ∀ first rest, moments = first :: rest →
          ∃ start ∈ moments, (windowsOf moments).Tile first start := by
  obtain ⟨_, station⟩ := reachable.sound.attached_of_done attached
  have reachable' := reachable.act (act_of_perform attached)
  have fresh : t.Sampled [] := ⟨⟨_, station, rfl, rfl⟩, .nil, nofun⟩
  obtain ⟨told, ended⟩ := calls_of_run ran
  refine ⟨fun operation samples => ?_, told, ended, fun moments made ordered fits => ?_⟩
  · have present : t.station.isSome = true := Option.isSome_of_mem station
    obtain ⟨station', present'⟩ :=
      Option.isSome_iff_exists.mp (reachable'.sound.run_isSome present stays ran)
    obtain ⟨answer, v, performed, view, _, _, answered⟩ :=
      ((reachable'.run ran).sound.wp_samples present' samples).exists_ok
    exact ⟨answer, v, view.rate, performed, answered⟩
  · obtain ⟨sampled, rates⟩ := fresh.calls reachable' stays ended made ordered fits
    obtain ⟨station', present, holds⟩ := sampled.holds
    refine ⟨rates, ?_, ?_⟩
    · rw [present]
      exact congrArg some holds.window
    · rintro first rest rfl
      exact exists_tile sampled.ordered

/-- A break and the start code of dimmer data, which one interrupt serves. -/
def countedPacket : List (Action Bench) :=
  [.disturb Bench.receiveBreak, .disturb (Bench.receive [0x00] 0x01), .perform (.interrupt .uart)]

/-- Five packets in two seconds, behind which the counters are reset, and a sixth one in the second
behind them, which is sampled one microsecond early, too. -/
def sampledRun : List (Action Bench) :=
  [.perform .updatesPerSecond] ++ (List.replicate 5 countedPacket).flatten ++
    [.disturb (Bench.advance 2000000), .perform .statistics, .perform .resetCounters] ++
    countedPacket ++ [.disturb (Bench.advance 999999), .perform .updatesPerSecond,
      .disturb (Bench.advance 1), .perform .statistics]

/-- The clock wraps within the first window. The calls answer 0 while there is no rate, 2 for five
packets in two seconds, and 1 once the second window is closed. -/
theorem Reachable.samples_updates_wrap :
    ∃ (t u : Node Bench 0 0) (told : List SampleCall) (start : Moment),
      perform (.attach {}) (powerUp { clock := 4294867296 } : Node Bench 0 0) = .ok (.done, t) ∧
      t.calls sampledRun = .ok (told, u) ∧
      told.map (fun call => call.rate.toNat) = [0, 2, 2, 1] ∧
      (windowsOf [⟨4294867296, 0⟩, ⟨4296867296, 5⟩, ⟨4297867295, 6⟩, ⟨4297867296, 6⟩]).Tile
        ⟨4294867296, 0⟩ start := by
  let moments : List Moment :=
    [⟨4294867296, 0⟩, ⟨4296867296, 5⟩, ⟨4297867295, 6⟩, ⟨4297867296, 6⟩]
  have carried : ∃ attached,
      perform (.attach {}) (powerUp { clock := 4294867296 } : Node Bench 0 0) = .ok attached ∧
      attached.1 = .done ∧ ∃ told, attached.2.calls sampledRun = .ok told ∧
        told.1.map (fun call => (call.reading, call.packets)) =
          moments.map fun now => (UInt32.ofNat now.time, now.packets) := by
    decide +kernel
  obtain ⟨⟨_, t⟩, attached, rfl, ⟨told, u⟩, ended, shown⟩ := carried
  have ran : t.run sampledRun = .ok u := run_of_calls ended
  have reachable : (powerUp { clock := 4294867296 } : Node Bench 0 0).Reachable := ⟨_, [], rfl⟩
  have stays : .perform .detach ∉ sampledRun := by simp [sampledRun, countedPacket]
  obtain ⟨_, told', ended', samples⟩ := Reachable.samples_updates reachable attached stays ran
  obtain ⟨rfl, _⟩ := Prod.mk.inj (Except.ok.inj (ended'.symm.trans ended))
  obtain ⟨rates, _, tiles⟩ := samples moments (SampleCall.made shown) (by decide) (by decide)
  obtain ⟨start, _, tile⟩ := tiles _ _ rfl
  have count : told'.length = 4 := by simpa [moments] using congrArg List.length shown
  have answered : told'.map (fun call => call.rate.toNat) =
      (List.range 4).map fun n => (windowsOf (moments.take (n + 1))).rate := by
    apply List.ext_getElem
    · simp [count]
    · intro n inside _
      rw [List.getElem_map, List.getElem_map, List.getElem_range]
      exact rates n _ (List.getElem?_eq_getElem _)
  exact ⟨t, u, told', start, attached, ended, answered.trans (by decide), tile⟩

end Node

end Dmx512
