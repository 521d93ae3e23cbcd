import Dmx512.Proofs.Node.Attaching
import Dmx512.Proofs.Node.Storage
import Dmx512.Proofs.Node.Tuning

/-!
# Frames that change

A station keeps the frame that it answered last as a change, apart from the frame that it read
last, and nothing but the next change replaces it. So whatever happens in between, the data of each
frame that is answered as a change differs from that of the one before, and a frame is passed over
exactly if its data is that of the one before.
-/

namespace Dmx512

open Act

/-- Of two computations that make the same of their answers, one answers where the other does. -/
theorem Checked.exists_of_map_eq {α β γ : Type} {first : Checked α} {second : Checked β}
    {f : α → γ} {g : β → γ} (same : first.map f = second.map g) {a : α} (ended : first = .ok a) :
    ∃ b, second = .ok b ∧ g b = f a := by
  have answered : second.map g = .ok (f a) := by
    rw [← same, ended]
    rfl
  exact Checked.map_ok answered

/-- A frame is a change behind the one that was answered last, if there was one. -/
def DmxFrame.IsChange (last : Option DmxFrame) (frame : DmxFrame) : Prop :=
  ∀ before, last = some before → before.data ≠ frame.data

theorem DmxFrame.isChange_iff {last : Option DmxFrame} {frame : DmxFrame} :
    frame.IsChange last ↔ last.map DmxFrame.data ≠ some frame.data := by
  cases last <;> simp [DmxFrame.IsChange]

theorem DmxFrame.not_isChange_iff {last : Option DmxFrame} {frame : DmxFrame} :
    ¬ frame.IsChange last ↔ ∃ before, last = some before ∧ before.data = frame.data := by
  simp [DmxFrame.IsChange]

/-- The first frame is a change, and behind others one whose data is not that of the last. -/
theorem DmxFrame.isChange_getLast?_iff {frames : List DmxFrame} {frame : DmxFrame} :
    frame.IsChange frames.getLast? ↔
      frames = [] ∨ ∃ last, frames.getLast? = some last ∧ last.data ≠ frame.data := by
  cases latest : frames.getLast? with
  | none => simp [DmxFrame.IsChange, List.getLast?_eq_none_iff.mp latest]
  | some last =>
      have several : frames ≠ [] := by
        rintro rfl
        cases latest
      simp [DmxFrame.IsChange, several]

instance (last : Option DmxFrame) : DecidablePred (DmxFrame.IsChange last) :=
  fun _ => decidable_of_iff _ DmxFrame.isChange_iff.symm

/-- The frame that an operation answers as a change. -/
def Operation.change? : Operation → Answer → Option DmxFrame
  | .takeChangedDmx, .dmx answer => answer
  | _, _ => none

/-- Only a poll for a change answers one. -/
theorem Operation.change?_eq_none {operation : Operation} (other : operation ≠ .takeChangedDmx)
    (answer : Answer) : operation.change? answer = none := by
  cases operation <;> first | rfl | exact absurd rfl other

namespace Attached

variable {H : Type} {d r : Nat} {allowed : Fault → Prop} {s : Attached H d r}

/-- A poll for a change takes the oldest unread frame, and answers and keeps it if it is one. -/
theorem wp_takeChangedDmx_filters : WP allowed takeChangedDmx (fun answer t =>
    t.link.dmxStore.unread = s.link.dmxStore.unread.tail ∧
    answer = s.link.dmxStore.unread.head?.filter (·.IsChange s.station.lastChanged) ∧
    t.station.lastChanged = answer.or s.station.lastChanged) s := by
  cases popped : s.link.dmxStore.pop? with
  | none =>
      have empty := Frame.Store.pop?_eq_none.mp popped
      refine (wp_takeChangedDmx_empty empty).mpr ?_
      rw [empty]
      exact ⟨rfl, rfl, rfl⟩
  | some taken =>
      obtain ⟨frame, rest⟩ := taken
      rw [takeChangedDmx, WP.bind_iff, wp_takeDmx_some popped, Frame.Store.unread_pop popped,
        List.head?_cons, List.tail_cons, Option.filter_some]
      simp only [changed?, WP.bind_iff, WP.get_iff, WP.ite_iff, WP.pure_iff, wp_update]
      refine ⟨fun same => ?_, fun differs => ?_⟩
      · rw [if_neg (by simpa [DmxFrame.isChange_iff] using same)]
        exact ⟨trivial, rfl, rfl⟩
      · rw [if_pos (by simpa [DmxFrame.isChange_iff] using differs)]
        exact ⟨trivial, rfl, rfl⟩

end Attached

namespace Node

variable {H : Type} [Hardware H] {d r : Nat} {s t u : Node H d r} {last : Option DmxFrame}

/-- A station is there, and `last` is what it keeps as the change that it answered last. -/
def LastChanged (s : Node H d r) (last : Option DmxFrame) : Prop :=
  s.station.map (·.lastChanged) = some last

/-- Let something happen, and tell the frame that is answered as a change thereby. -/
def tellChange (s : Node H d r) : Happening H → Checked (Option DmxFrame × Node H d r)
  | .publish time frame => do
    let ((), link) ← Link.publish time (some frame) s.link
    pure (none, { s with link })
  | .act (.disturb change) => pure (none, s.disturb change)
  | .act (.perform operation) => do
    let (answer, t) ← perform operation s
    pure (operation.change? answer, t)

def changes (s : Node H d r) : List (Happening H) → Checked (List DmxFrame × Node H d r)
  | [] => pure ([], s)
  | happening :: rest => do
    let (change, m) ← s.tellChange happening
    let (later, t) ← m.changes rest
    pure (change.toList ++ later, t)

/-- What is told does not matter to what happens. -/
theorem tellChange_node (s : Node H d r) (happening : Happening H) :
    (s.tellChange happening).map Prod.snd = (s.happen happening).map Used.node := by
  cases happening with
  | publish time frame =>
      rw [tellChange, happen]
      cases Link.publish time (some frame) s.link <;> rfl
  | act action =>
      cases action with
      | disturb change => rfl
      | perform operation =>
          rw [tellChange, happen]
          cases perform operation s <;> rfl

/-- Whatever ends when things happen ends when changes are told. -/
theorem changes_of_live {happenings : List (Happening H)} {used : Used H d r}
    (lived : s.live happenings = .ok used) :
    ∃ frames, s.changes happenings = .ok (frames, used.node) := by
  induction happenings generalizing s used with
  | nil =>
      cases lived
      exact ⟨[], rfl⟩
  | cons happening rest ih =>
      rw [live] at lived
      obtain ⟨first, happened, others⟩ := Checked.bind_ok lived
      obtain ⟨later, went, left⟩ := Checked.bind_ok others
      cases left
      obtain ⟨⟨change, m⟩, told, same⟩ :=
        Checked.exists_of_map_eq (s.tellChange_node happening).symm happened
      obtain rfl : m = first.node := same
      obtain ⟨frames, changed⟩ := ih went
      rw [changes, told]
      simp only [Checked.ok_bind, changed]
      exact ⟨_, rfl⟩

omit [Hardware H] in
theorem LastChanged.exists_station (h : s.LastChanged last) :
    ∃ station, s.station = some station ∧ station.lastChanged = last :=
  Option.map_eq_some_iff.mp h

/-- A poll for a change ends where there is a station. -/
theorem LastChanged.wp_takeChangedDmx (h : s.LastChanged last) :
    WP (fun _ => False) (perform .takeChangedDmx) (fun answer t => ∃ change, answer = .dmx change ∧
      t.link.dmxStore.unread = s.link.dmxStore.unread.tail ∧
      change = s.link.dmxStore.unread.head?.filter (·.IsChange last) ∧
      t.LastChanged (change.or last)) s := by
  obtain ⟨station, present, rfl⟩ := h.exists_station
  refine (wp_onStation_some present).mpr (WP.bind Attached.wp_takeChangedDmx_filters ?_)
  rintro change t ⟨unread, answered, kept⟩
  exact ⟨change, rfl, unread, answered, congrArg some kept⟩

/-- Nothing but a poll for a change replaces what a station keeps as the last one. -/
theorem Sound.perform_lastChanged_of_ne (h : s.Sound) (latest : s.LastChanged last)
    {operation : Operation} {answer : Answer} (other : operation ≠ .takeChangedDmx)
    (stays : operation ≠ .detach) (performed : perform operation s = .ok (answer, t)) :
    t.LastChanged last := by
  by_cases attaches : ∃ config, operation = .attach config
  · -- Where a station is there already, another one is refused.
    obtain ⟨config, rfl⟩ := attaches
    obtain ⟨station, present, _⟩ := latest.exists_station
    cases (h.occupied present config).symm.trans performed
    exact latest
  · have unattached (config : Config) : operation ≠ .attach config :=
      fun same => attaches ⟨config, same⟩
    have kept := wp_perform_keeps (s := s) (·.lastChanged) (fun _ _ _ => rfl)
      (fun same => absurd same other) (fun _ _ _ _ _ _ => rfl) (fun _ _ _ => rfl)
      (fun _ _ _ _ _ => rfl) (fun _ => ⟨unattached, fun _ _ => rfl⟩) stays
    exact (kept.elim performed).trans latest

/-- What an operation answers as a change is kept as the last one, and is a change behind the one
that was kept before. -/
theorem Sound.perform_lastChanged (h : s.Sound) (latest : s.LastChanged last)
    {operation : Operation} {answer : Answer} (stays : operation ≠ .detach)
    (performed : perform operation s = .ok (answer, t)) :
    t.LastChanged ((operation.change? answer).or last) ∧
      ∀ frame, operation.change? answer = some frame → frame.IsChange last := by
  by_cases polls : operation = .takeChangedDmx
  · subst polls
    obtain ⟨change, rfl, _, answered, kept⟩ := latest.wp_takeChangedDmx.elim performed
    refine ⟨kept, fun frame told => ?_⟩
    rw [Operation.change?, answered, Option.filter_eq_some_iff] at told
    exact of_decide_eq_true told.2
  · rw [operation.change?_eq_none polls, Option.none_or]
    exact ⟨h.perform_lastChanged_of_ne latest polls stays performed, nofun⟩

theorem Sound.tellChange_lastChanged (h : s.Sound) (latest : s.LastChanged last)
    {happening : Happening H} {change : Option DmxFrame}
    (stays : happening ≠ .act (.perform .detach))
    (told : s.tellChange happening = .ok (change, t)) :
    t.Sound ∧ t.LastChanged (change.or last) ∧
      ∀ frame, change = some frame → frame.IsChange last := by
  obtain ⟨used, happened, same⟩ := Checked.exists_of_map_eq (s.tellChange_node happening) told
  have sound := (h.happen_uses happened).sound
  rw [show used.node = t from same] at sound
  refine ⟨sound, ?_⟩
  cases happening with
  | publish time frame =>
      rw [tellChange] at told
      obtain ⟨_, published, left⟩ := Checked.bind_ok told
      cases left
      exact ⟨latest, nofun⟩
  | act action =>
      cases action with
      | disturb change =>
          cases told
          exact ⟨latest, nofun⟩
      | perform operation =>
          rw [tellChange] at told
          obtain ⟨_, performed, left⟩ := Checked.bind_ok told
          cases left
          exact h.perform_lastChanged latest (fun same => stays (same ▸ rfl)) performed

theorem changes_cons {happening : Happening H} {rest : List (Happening H)}
    {frames : List DmxFrame} (told : s.changes (happening :: rest) = .ok (frames, t)) :
    ∃ change m later, s.tellChange happening = .ok (change, m) ∧
      m.changes rest = .ok (later, t) ∧ frames = change.toList ++ later := by
  rw [changes] at told
  obtain ⟨⟨change, m⟩, first, others⟩ := Checked.bind_ok told
  obtain ⟨⟨later, u⟩, went, left⟩ := Checked.bind_ok others
  cases left
  exact ⟨change, m, later, first, went, rfl⟩

/-- The last of the frames that were answered as changes is kept, and each of them is a change
behind the one before. -/
theorem Sound.changes_lastChanged (h : s.Sound) (latest : s.LastChanged last)
    {happenings : List (Happening H)} {frames : List DmxFrame}
    (stays : .act (.perform .detach) ∉ happenings) (told : s.changes happenings = .ok (frames, t)) :
    t.LastChanged (frames.getLast?.or last) ∧
      (last.toList ++ frames).IsChain fun frame next => frame.data ≠ next.data := by
  induction happenings generalizing s last frames with
  | nil =>
      cases told
      refine ⟨latest, ?_⟩
      cases last <;> simp
  | cons happening rest ih =>
      rw [List.mem_cons, not_or] at stays
      obtain ⟨change, m, later, first, went, rfl⟩ := changes_cons told
      obtain ⟨sound, latest', changes⟩ := h.tellChange_lastChanged latest (Ne.symm stays.1) first
      obtain ⟨kept, chain⟩ := ih sound latest' stays.2 went
      cases change with
      | none => exact ⟨kept, chain⟩
      | some frame =>
          have newest : ((some frame).toList ++ later).getLast?.or last =
              later.getLast?.or (some frame) := by
            rw [Option.toList_some, List.singleton_append, List.getLast?_cons]
            cases later.getLast? <;> rfl
          refine ⟨newest ▸ kept, ?_⟩
          cases last with
          | none => exact chain
          | some before => exact .cons_cons (changes frame rfl before rfl) chain

/-- Change detection. Let anything happen at a station from where it attached until it detaches;
publications and readings end whatever they meet. Then the frames that were answered as changes
differ, each from the one before it, in their data. A poll for a change that follows ends; where
nothing is unread it answers nothing and leaves everything as it is, and else it consumes exactly
the oldest unread frame, and answers it if and only if no frame was answered as a change before, or
the data of the last one is another. So a frame that is passed over has the data of the last one
that was answered as a change. -/
theorem Reachable.reports_changes (reachable : s.Reachable) {config : Config}
    (attached : perform (.attach config) s = .ok (.done, t)) {happenings : List (Happening H)}
    (stays : .act (.perform .detach) ∉ happenings) :
    ((∀ happening ∈ happenings, happening.Reads) →
      ∃ frames u, t.changes happenings = .ok (frames, u)) ∧
    ∀ frames u, t.changes happenings = .ok (frames, u) →
      (frames.IsChain fun frame next => frame.data ≠ next.data) ∧
      ∃ answer v, perform .takeChangedDmx u = .ok (.dmx answer, v) ∧
        (u.link.dmxStore.unread = [] → answer = none ∧ v = u) ∧
        ∀ frame rest, u.link.dmxStore.unread = frame :: rest →
          v.link.dmxStore.unread = rest ∧
          (answer = some frame ↔
            frames = [] ∨ ∃ last, frames.getLast? = some last ∧ last.data ≠ frame.data) ∧
          (answer = none ↔ ∃ last, frames.getLast? = some last ∧ last.data = frame.data) := by
  obtain ⟨_, station⟩ := reachable.sound.attached_of_done attached
  have sound := (reachable.act (act_of_perform attached)).sound
  have fresh : t.LastChanged none := by
    rw [LastChanged, station]
    rfl
  constructor
  · intro reads
    obtain ⟨used, lived⟩ := live_ends reads (s := t)
    obtain ⟨frames, told⟩ := changes_of_live lived
    exact ⟨frames, used.node, told⟩
  intro frames u told
  obtain ⟨latest, chain⟩ := sound.changes_lastChanged fresh stays told
  rw [Option.or_none] at latest
  refine ⟨chain, ?_⟩
  obtain ⟨_, v, polled, answer, rfl, consumed, answered, _⟩ := latest.wp_takeChangedDmx.exists_ok
  refine ⟨answer, v, polled, fun empty => ?_, fun frame rest unread => ?_⟩
  · obtain ⟨station, present, _⟩ := latest.exists_station
    have silent := (poll_empty present).1 empty .takeChangedDmx (by simp)
    cases silent.symm.trans polled
    exact ⟨rfl, rfl⟩
  · rw [unread] at consumed answered
    rw [List.head?_cons, Option.filter_some] at answered
    refine ⟨consumed, ?_⟩
    rw [answered, ← DmxFrame.isChange_getLast?_iff, ← DmxFrame.not_isChange_iff]
    by_cases changed : frame.IsChange frames.getLast? <;> simp [changed]

/-- Two slots are answered as a change; one slot is read, and then the two slots come again, at
another spacing. -/
def repeatedRun : List (Happening Bench) :=
  [.publish 0 (.dmx { slots := [1, 2] }), .act (.perform .takeChangedDmx),
    .publish 0 (.dmx { slots := [1] }), .act (.perform .takeDmx),
    .publish 0 (.dmx { slots := [1, 2], slotToSlot := 50 })]

/-- The two slots are passed over the second time, and one slot behind them is a change. -/
theorem Reachable.reports_changes_repeated :
    ∃ t u v w x : Node Bench 1 0,
      perform (.attach {}) (powerUp {} : Node Bench 1 0) = .ok (.done, t) ∧
      t.changes repeatedRun = .ok ([{ slots := [1, 2] }], u) ∧
      perform .takeChangedDmx u = .ok (.dmx none, v) ∧ v.link.dmxStore.unread = [] ∧
      t.changes (repeatedRun ++ [.act (.perform .takeChangedDmx),
        .publish 0 (.dmx { slots := [1] })]) = .ok ([{ slots := [1, 2] }], w) ∧
      perform .takeChangedDmx w = .ok (.dmx (some { slots := [1] }), x) := by
  have carried : ∃ attached, perform (.attach {}) (powerUp {} : Node Bench 1 0) = .ok attached ∧
      attached.1 = .done ∧
      (∃ told, attached.2.changes repeatedRun = .ok told ∧ told.1 = [{ slots := [1, 2] }] ∧
        told.2.link.dmxStore.unread = [{ slots := [1, 2], slotToSlot := 50 }]) ∧
      ∃ told, attached.2.changes (repeatedRun ++ [.act (.perform .takeChangedDmx),
          .publish 0 (.dmx { slots := [1] })]) = .ok told ∧ told.1 = [{ slots := [1, 2] }] ∧
        told.2.link.dmxStore.unread = [{ slots := [1] }] := by
    decide +kernel
  obtain ⟨⟨_, t⟩, attached, rfl, ⟨⟨_, u⟩, told, rfl, unread⟩,
    ⟨_, w⟩, told', rfl, unread'⟩ := carried
  have reachable : (powerUp {} : Node Bench 1 0).Reachable := ⟨{}, [], rfl⟩
  have stays : .act (.perform .detach) ∉ repeatedRun := by simp [repeatedRun]
  have stays' : .act (.perform .detach) ∉ repeatedRun ++ [.act (.perform .takeChangedDmx),
      .publish 0 (.dmx { slots := [1] })] := by simp [repeatedRun]
  obtain ⟨_, _, v, polled, _, answers⟩ :=
    (Reachable.reports_changes reachable attached stays).2 _ _ told
  obtain ⟨_, _, x, polled', _, answers'⟩ :=
    (Reachable.reports_changes reachable attached stays').2 _ _ told'
  obtain ⟨consumed, _, silent⟩ := answers _ _ unread
  obtain ⟨_, changed, _⟩ := answers' _ _ unread'
  obtain rfl := silent.mpr ⟨_, rfl, rfl⟩
  obtain rfl := changed.mpr (.inr ⟨_, rfl, by decide⟩)
  exact ⟨t, u, v, w, x, attached, told, polled, consumed, told', polled'⟩

end Node

end Dmx512
