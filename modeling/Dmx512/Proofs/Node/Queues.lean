import Dmx512.Bench
import Dmx512.Proofs.Node.Polling

/-!
# The frame stores are queues

Each of the two stores of a node is a newest-N queue of the frames published to it: whatever is
received, read and done in whatever order, and whatever comes in between while a store is read. A
reading that is interrupted takes its place among the frames published meanwhile, and in that place
does what a queue does.
-/

namespace Dmx512

open Act
open Dmx512.Frame (Copier Task Use)

variable {H : Type} {d r k l : Nat} {α β : Type}

/-- What happens at a node: something as a whole, or the reading of a store with what comes in
between its steps. A flush reads the one store and then the other. -/
inductive Occurrence (H : Type) where
  | whole (happening : Happening H)
  | readDmx (task : Task) (copier : Copier DmxFrame) (turns : List (Turn H))
  /-- A DMX frame is taken, and answered if it is a change. -/
  | readChanged (copier : Copier DmxFrame) (turns : List (Turn H))
  | readRdm (task : Task) (copier : Copier RdmFrame) (turns : List (Turn H))

def Occurrence.Reads : Occurrence H → Prop
  | .whole happening => happening.Reads
  | .readDmx _ _ _ | .readChanged _ _ | .readRdm _ _ _ => True

/-- Read a store, and tell how it is used thereby, and how the other one is. -/
def Shelf.poll [Hardware H] (shelf : Shelf H d r α k) (other : Shelf H d r β l) (copier : Copier α)
    (task : Task) (turns : List (Turn H)) :
    Act (Attached H d r) (Option α × List (Use α) × List (Use β)) := do
  let before := (← get).link.line.journal.publications.length
  let (reader, answer) ← shelf.read copier task turns
  let frames := (← get).link.line.journal.publications.drop before
  pure (answer, reader.uses task answer, (frames.filterMap other.kind?).map .publish)

namespace Node

variable [Hardware H] {s t : Node H d r}

/-- Act on the station and its link, where there is a station, and tell how the stores are used. -/
def attend (s : Node H d r)
    (act : Act (Attached H d r) (List (Use DmxFrame) × List (Use RdmFrame))) :
    Checked (Used H d r) :=
  match s.station with
  | none => pure { dmx := [], rdm := [], node := s }
  | some station => do
    let ((dmx, rdm), attached) ← act { station, link := s.link }
    pure { dmx, rdm, node := attached.node }

def occur (s : Node H d r) : Occurrence H → Checked (Used H d r)
  | .whole happening => s.happen happening
  | .readDmx task copier turns => s.attend do
    let (_, dmx, rdm) ← Shelf.dmx.poll .rdm copier task turns
    pure (dmx, rdm)
  | .readChanged copier turns => s.attend do
    let (answer, dmx, rdm) ← Shelf.dmx.poll .rdm copier .take turns
    let _ ← Attached.changed? answer
    pure (dmx, rdm)
  | .readRdm task copier turns => s.attend do
    let (_, rdm, dmx) ← Shelf.rdm.poll .dmx copier task turns
    pure (dmx, rdm)

def pass (s : Node H d r) : List (Occurrence H) → Checked (Used H d r)
  | [] => pure { dmx := [], rdm := [], node := s }
  | occurrence :: rest => do
    let first ← s.occur occurrence
    let later ← first.node.pass rest
    pure { dmx := first.dmx ++ later.dmx, rdm := first.rdm ++ later.rdm, node := later.node }

end Node

namespace Shelf

variable [Hardware H] {allowed : Fault → Prop} {shelf : Shelf H d r α k} {other : Shelf H d r β l}

structure Polled (shelf : Shelf H d r α k) (other : Shelf H d r β l) (s t : Attached H d r)
    (own : List (Use α)) (others : List (Use β)) : Prop where
  sound : t.node.Sound
  told : ∃ frames, t.link.line.journal.publications =
    s.link.line.journal.publications ++ frames ∧
    Use.published own = frames.filterMap shelf.kind? ∧
    Use.published others = frames.filterMap other.kind?
  own : Use.Counted (2 ^ k) (shelf.store s.link).lag own →
    (shelf.store s.link).Runs own (shelf.store t.link)
  others : (other.store s.link).Runs others (other.store t.link)

theorem wp_poll (beside : shelf.Beside other) {s : Attached H d r} (sound : s.node.Sound)
    (copier : Copier α) (task : Task) (turns : List (Turn H)) :
    WP allowed (shelf.poll other copier task turns)
      (fun told t => Polled shelf other s t told.2.1 told.2.2) s := by
  rw [poll, WP.bind_iff, WP.get_iff]
  apply WP.bind (wp_read beside sound copier task turns)
  rintro ⟨reader, answer⟩ t ⟨served, frames, reads, split⟩
  rw [WP.bind_iff, WP.get_iff, WP.pure_iff]
  have new : t.link.line.journal.publications.drop s.link.line.journal.publications.length =
      frames := by
    rw [reads.publications, List.drop_left]
  have own : Use.published (reader.uses task answer) = frames.filterMap shelf.kind? := by
    rw [Frame.Reader.uses, Use.published_append, Use.published_map_publish, ← split]
    cases task <;> exact congrArg (reader.seen ++ ·) (Use.published_map_publish _)
  rw [new]
  refine ⟨reads.sound, ⟨frames, reads.publications, own, Use.published_map_publish _⟩,
    fun counted => served.runs ?_, ?_⟩
  · exact counted.front.published (Frame.Store.lag_lt _)
  · rw [reads.other]
    exact Frame.Store.runs_pushAll _ _

end Shelf

namespace Node

variable [Hardware H] {s t : Node H d r}

omit [Hardware H] in
theorem Uses.nil (h : s.Sound) : s.Uses { dmx := [], rdm := [], node := s } where
  sound := h
  told := ⟨[], (List.append_nil _).symm, rfl, rfl⟩
  dmx _ := .nil _
  rdm _ := .nil _

omit [Hardware H] in
theorem Uses.append {first later : Used H d r} (h : s.Uses first) (h' : first.node.Uses later) :
    s.Uses {
      dmx := first.dmx ++ later.dmx, rdm := first.rdm ++ later.rdm, node := later.node } where
  sound := h'.sound
  told := by
    obtain ⟨frames, published, dmx, rdm⟩ := h.told
    obtain ⟨frames', published', dmx', rdm'⟩ := h'.told
    refine ⟨frames ++ frames', ?_, ?_, ?_⟩
    · rw [published', published, List.append_assoc]
    · rw [Use.published_append, dmx, dmx', List.filterMap_append]
    · rw [Use.published_append, rdm, rdm', List.filterMap_append]
  dmx counted := by
    have runs := h.dmx counted.front
    exact runs.append (h'.dmx (runs.counted counted))
  rdm counted := by
    have runs := h.rdm counted.front
    exact runs.append (h'.rdm (runs.counted counted))

omit [Hardware H] in
/-- What a station does to a node ends, and tells what happens to the stores. -/
theorem Sound.attend_uses (h : s.Sound)
    {act : Act (Attached H d r) (List (Use DmxFrame) × List (Use RdmFrame))}
    (tells : ∀ a : Attached H d r, a.node = s →
      WP (fun _ => False) act (fun told t => s.Uses ⟨told.1, told.2, t.node⟩) a) :
    ∃ used, s.attend act = .ok used ∧ s.Uses used := by
  obtain ⟨link, station⟩ := s
  cases station with
  | none => exact ⟨_, rfl, .nil h⟩
  | some station =>
      obtain ⟨told, t, ended, uses⟩ := (tells { station, link } rfl).exists_ok
      refine ⟨_, ?_, uses⟩
      rw [attend]
      dsimp only
      rw [ended]
      rfl

omit [Hardware H] in
/-- To compare a frame with the one answered last touches no link. -/
theorem wp_changed? {allowed : Fault → Prop} {a : Attached H d r} (taken : Option DmxFrame) :
    WP allowed (Attached.changed? taken) (fun _ t => t.link = a.link) a := by
  cases taken with
  | none => exact rfl
  | some frame =>
      simp only [Attached.changed?, WP.bind_iff, WP.get_iff, WP.ite_iff, WP.pure_iff,
        Attached.wp_update, implies_true, and_self]

theorem Sound.readDmx_uses (h : s.Sound) (task : Task) (copier : Copier DmxFrame)
    (turns : List (Turn H)) :
    ∃ used, s.occur (.readDmx task copier turns) = .ok used ∧ s.Uses used := by
  apply h.attend_uses
  rintro a rfl
  apply WP.bind (Shelf.wp_poll Shelf.dmx_beside_rdm h copier task turns)
  rintro told t polled
  exact ⟨polled.sound, polled.told, polled.own, fun _ => polled.others⟩

theorem Sound.readChanged_uses (h : s.Sound) (copier : Copier DmxFrame) (turns : List (Turn H)) :
    ∃ used, s.occur (.readChanged copier turns) = .ok used ∧ s.Uses used := by
  apply h.attend_uses
  rintro a rfl
  apply WP.bind (Shelf.wp_poll Shelf.dmx_beside_rdm h copier .take turns)
  rintro told t polled
  apply WP.bind (wp_changed? told.1)
  rintro _ u same
  have sound : u.node.Sound := by
    rw [Attached.node, same]
    exact ⟨polled.sound.toSteady, polled.sound.free, polled.sound.attached⟩
  have same' : u.node.link = t.node.link := same
  refine ⟨sound, ?_, ?_, ?_⟩ <;> rw [same']
  · exact polled.told
  · exact polled.own
  · exact fun _ => polled.others

theorem Sound.readRdm_uses (h : s.Sound) (task : Task) (copier : Copier RdmFrame)
    (turns : List (Turn H)) :
    ∃ used, s.occur (.readRdm task copier turns) = .ok used ∧ s.Uses used := by
  apply h.attend_uses
  rintro a rfl
  apply WP.bind (Shelf.wp_poll Shelf.rdm_beside_dmx h copier task turns)
  rintro told t polled
  obtain ⟨frames, published, rdm, dmx⟩ := polled.told
  exact ⟨polled.sound, ⟨frames, published, dmx, rdm⟩, fun _ => polled.others, polled.own⟩

theorem Sound.occur_uses (h : s.Sound) {occurrence : Occurrence H} {used : Used H d r}
    (occurred : s.occur occurrence = .ok used) : s.Uses used := by
  have same {used' : Used H d r} (ended : s.occur occurrence = .ok used') : used' = used :=
    Except.ok.inj (ended.symm.trans occurred)
  cases occurrence with
  | whole happening => exact h.happen_uses occurred
  | readDmx task copier turns =>
      obtain ⟨used', ended, uses⟩ := h.readDmx_uses task copier turns
      exact same ended ▸ uses
  | readChanged copier turns =>
      obtain ⟨used', ended, uses⟩ := h.readChanged_uses copier turns
      exact same ended ▸ uses
  | readRdm task copier turns =>
      obtain ⟨used', ended, uses⟩ := h.readRdm_uses task copier turns
      exact same ended ▸ uses

theorem Sound.occur_ends (h : s.Sound) {occurrence : Occurrence H} (reads : occurrence.Reads) :
    ∃ used, s.occur occurrence = .ok used := by
  cases occurrence with
  | whole happening => exact happen_ends reads
  | readDmx task copier turns => exact (h.readDmx_uses task copier turns).imp fun _ => And.left
  | readChanged copier turns => exact (h.readChanged_uses copier turns).imp fun _ => And.left
  | readRdm task copier turns => exact (h.readRdm_uses task copier turns).imp fun _ => And.left

theorem pass_cons {occurrence : Occurrence H} {rest : List (Occurrence H)} {used : Used H d r}
    (passed : s.pass (occurrence :: rest) = .ok used) :
    ∃ first later, s.occur occurrence = .ok first ∧ first.node.pass rest = .ok later ∧
      used = {
        dmx := first.dmx ++ later.dmx, rdm := first.rdm ++ later.rdm, node := later.node } := by
  rw [pass] at passed
  obtain ⟨first, occurred, others⟩ := Checked.bind_ok passed
  obtain ⟨later, went, left⟩ := Checked.bind_ok others
  exact ⟨first, later, occurred, went, (Except.ok.inj left).symm⟩

/-- Whatever happens, the stores run as they are used. -/
theorem Sound.pass_uses (h : s.Sound) {occurrences : List (Occurrence H)} {used : Used H d r}
    (passed : s.pass occurrences = .ok used) : s.Uses used := by
  induction occurrences generalizing s used with
  | nil =>
      cases passed
      exact .nil h
  | cons occurrence rest ih =>
      obtain ⟨first, later, occurred, went, rfl⟩ := pass_cons passed
      have uses := h.occur_uses occurred
      exact uses.append (ih uses.sound went)

/-- Publications and readings end, whatever comes in between. -/
theorem Sound.pass_ends (h : s.Sound) {occurrences : List (Occurrence H)}
    (reads : ∀ occurrence ∈ occurrences, occurrence.Reads) :
    ∃ used, s.pass occurrences = .ok used := by
  induction occurrences generalizing s with
  | nil => exact ⟨_, rfl⟩
  | cons occurrence rest ih =>
      obtain ⟨reads', others⟩ := List.forall_mem_cons.mp reads
      obtain ⟨first, occurred⟩ := h.occur_ends reads'
      obtain ⟨later, went⟩ := ih (h.occur_uses occurred).sound others
      rw [pass, occurred]
      change ∃ used, (first.node.pass rest >>= _) = .ok used
      rw [went]
      exact ⟨_, rfl⟩

/-- The stores of a node are newest-N queues. Let anything happen at a reachable node, whatever its
two stores hold and wherever their counters stand, let anything come in between the steps of what
reads them, and let fewer than `2 ^ 64` frames be published behind the one consumed last. Then each
store answers and leaves what a queue of its depth does that starts with its unread frames and takes
in exactly those that the journal says were published; a reading that is interrupted has its place
among the frames published meanwhile. Frames are taken in the order of their publication, and none
twice; a look shows what is taken next; and a frame is lost only to a flush or to as many newer ones
as the store is deep. The number of pending frames is the length of the queue, and that of the queue
before if frames are published between the loads of its counts. A poll of an empty store changes
nothing, and one that finds nothing leaves the station as it was even where it is interrupted.
Publications and readings always end. -/
theorem Reachable.stores_are_queues (reachable : s.Reachable)
    (dmxStore : Frame.Store DmxFrame d) (rdmStore : Frame.Store RdmFrame r)
    (occurrences : List (Occurrence H)) :
    ((∀ occurrence ∈ occurrences, occurrence.Reads) →
      ∃ used, (s.withStores dmxStore rdmStore).pass occurrences = .ok used) ∧
    ∀ dmx rdm t, (s.withStores dmxStore rdmStore).pass occurrences = .ok ⟨dmx, rdm, t⟩ →
      (∃ frames,
        t.link.line.journal.publications = s.link.line.journal.publications ++ frames ∧
        Use.published dmx = frames.filterMap Frame.dmx? ∧
        Use.published rdm = frames.filterMap Frame.rdm?) ∧
      (Use.Counted (2 ^ d) dmxStore.lag dmx →
        Frame.Queue.Laws (2 ^ d) dmxStore.unread dmx t.link.dmxStore.unread) ∧
      (Use.Counted (2 ^ r) rdmStore.lag rdm →
        Frame.Queue.Laws (2 ^ r) rdmStore.unread rdm t.link.rdmStore.unread) ∧
      t.link.dmxStore.count = t.link.dmxStore.unread.length ∧
      t.link.rdmStore.count = t.link.rdmStore.unread.length ∧
      (∀ newer, (t.link.dmxStore.pushAll newer).pending t.link.dmxStore.published =
        t.link.dmxStore.unread.length) ∧
      (∀ newer, (t.link.rdmStore.pushAll newer).pending t.link.rdmStore.published =
        t.link.rdmStore.unread.length) ∧
      ∀ station, t.station = some station →
        (t.link.dmxStore.unread = [] → ∀ operation ∈ [.takeDmx, .peekDmx, .takeChangedDmx],
          perform operation t = .ok (.dmx none, t)) ∧
        (t.link.rdmStore.unread = [] → ∀ operation ∈ [.takeRdm, .peekRdm],
          perform operation t = .ok (.rdm none, t)) ∧
        (∀ copier task turns reader u,
          Shelf.dmx.read copier task turns { station, link := t.link } = .ok ((reader, none), u) →
          t.link.dmxStore.lag + reader.seen.length < Frame.Store.counts → u.station = station) ∧
        ∀ copier task turns reader u,
          Shelf.rdm.read copier task turns { station, link := t.link } = .ok ((reader, none), u) →
          t.link.rdmStore.lag + reader.seen.length < Frame.Store.counts → u.station = station := by
  have sound := reachable.sound.withStores dmxStore rdmStore
  refine ⟨sound.pass_ends, fun dmx rdm t passed => ?_⟩
  have uses := sound.pass_uses passed
  refine ⟨uses.told, fun counted => ((uses.dmx counted).queue counted).laws,
    fun counted => ((uses.rdm counted).queue counted).laws,
    (Frame.Store.length_unread _).symm, (Frame.Store.length_unread _).symm,
    fun newer => ?_, fun newer => ?_, fun station present => ?_⟩
  · rw [Frame.Store.pending_pushAll, Frame.Store.length_unread]
  · rw [Frame.Store.pending_pushAll, Frame.Store.length_unread]
  · have there : (⟨station, t.link⟩ : Attached H d r).node = t := by
      rw [Attached.node, ← present]
    have sound' : (⟨station, t.link⟩ : Attached H d r).node.Sound := there ▸ uses.sound
    obtain ⟨dmx, rdm⟩ := poll_empty present
    exact ⟨dmx, rdm, fun _ _ _ _ _ => Shelf.read_nothing Shelf.dmx_beside_rdm sound',
      fun _ _ _ _ _ => Shelf.read_nothing Shelf.rdm_beside_dmx sound'⟩

def listening : List (Action Bench) := [.perform (.attach {})]

/-- Counters that are about to wrap. -/
def wrapping : Frame.Store DmxFrame 1 :=
  { (.empty {} : Frame.Store DmxFrame 1) with
    published := 0xFFFFFFFFFFFFFFFE, consumed := 0xFFFFFFFFFFFFFFFE }

/-- The slots of a frame are copied apart from the rest of it. -/
def halves : Copier DmxFrame where
  parts := 2
  copy part frame buffer :=
    if part = 0 then { buffer with slots := frame.slots } else { frame with slots := buffer.slots }
  whole _ _ := rfl

/-- Two frames are published while the one in the store is half copied, and another when the copy
that is made instead was checked. -/
def tearing : List (Turn Bench) :=
  List.replicate 3 .step ++
    [.meanwhile (.publish 0 (.dmx { slots := [2] })),
      .meanwhile (.publish 0 (.dmx { slots := [3] }))] ++
    List.replicate 9 .step ++ [.meanwhile (.publish 0 (.dmx { slots := [4] }))]

def lapping : List (Occurrence Bench) :=
  [.whole (.publish 0 (.dmx { slots := [1] })), .readDmx .take halves tearing,
    .whole (.act (.perform .peekDmx))]

def lappingUses : List (Use DmxFrame) :=
  [.publish { slots := [1] }, .publish { slots := [2] }, .publish { slots := [3] },
    .take (some { slots := [2] }), .publish { slots := [4] }, .look (some { slots := [3] })]

theorem Reachable.stores_are_queues_lapped :
    ∃ s t : Node Bench 1 0, s.Reachable ∧
      (s.withStores wrapping (.empty {})).pass lapping = .ok ⟨lappingUses, [], t⟩ ∧
      t.link.dmxStore.consumed = 0 ∧
      Frame.Queue.Laws 2 [] lappingUses [{ slots := [3] }, { slots := [4] }] := by
  have carried : (powerUp {} : Node Bench 1 0).Ends listening fun s =>
      ∃ used, (s.withStores wrapping (.empty {})).pass lapping = .ok used ∧
        used.dmx = lappingUses ∧ used.rdm = [] ∧
        used.node.link.dmxStore.unread = [{ slots := [3] }, { slots := [4] }] ∧
        used.node.link.dmxStore.consumed = 0 := by
    decide +kernel
  obtain ⟨s, started, ⟨dmx, rdm, t⟩, passed, rfl, rfl, unread, consumed⟩ := carried
  have reachable : s.Reachable := ⟨{}, listening, started⟩
  obtain ⟨_, counted, _⟩ :=
    (Reachable.stores_are_queues reachable wrapping (.empty {}) lapping).2 lappingUses [] t passed
  have laws := counted (by decide +kernel)
  rw [unread] at laws
  exact ⟨s, t, reachable, passed, consumed, laws⟩

end Node

end Dmx512
