import Dmx512.Proofs.Link.Publishing
import Dmx512.Proofs.Node.Runs
import Dmx512.Proofs.Station.Reading

/-!
# How the frame stores are used

Whatever is received, read and done in whatever order, the two stores of a node are used by
publications and by what reads them as it answers. To allow for every sequence of publications,
frames of any content may be published between the actions of a run, beside those that its
receiver completes.
-/

namespace Dmx512

open Act
open Dmx512.Frame (Use)
open Step.Kind (IsFrameless IsSteering)

/-- What an action does at the stores of a node, and what it leaves. -/
inductive Happening (H : Type) where
  | act (action : Node.Action H)
  | publish (time : Micros) (frame : Frame)

/-- An operation that reads frames or gives them up. -/
def Operation.Reads : Operation → Prop
  | .takeDmx | .peekDmx | .takeChangedDmx | .takeRdm | .peekRdm | .flush => True
  | _ => False

def Happening.Reads {H : Type} : Happening H → Prop
  | .publish _ _ => True
  | .act (.perform operation) => operation.Reads
  | .act (.disturb _) => False

/-- Frames that a link publishes are published to its stores. -/
theorem Scene.Publishes.runs {d r : Nat} {s t : Scene d r} {frames : List Frame}
    (h : s.Publishes frames t) :
    s.dmxStore.Runs ((frames.filterMap Frame.dmx?).map .publish) t.dmxStore ∧
      s.rdmStore.Runs ((frames.filterMap Frame.rdm?).map .publish) t.rdmStore := by
  rw [h.dmxStore, h.rdmStore]
  exact ⟨Frame.Store.runs_pushAll _ _, Frame.Store.runs_pushAll _ _⟩

namespace Node

/-- A node, and how its stores were used up to there. -/
structure Used (H : Type) (d r : Nat) where
  /-- How the store of DMX frames was used. -/
  dmx : List (Use DmxFrame)
  /-- How the store of RDM frames was used. -/
  rdm : List (Use RdmFrame)
  node : Node H d r

variable {H : Type} [Hardware H] {d r : Nat} {s t : Node H d r}

/-- How an operation that was answered used the store of DMX frames. What is taken
without an answer is in the buffer of the station afterwards. -/
def dmxUse? (s t : Node H d r) : Operation → Answer → Option (Use DmxFrame)
  | .takeDmx, .dmx answer => some (.take answer)
  | .peekDmx, .dmx answer => some (.look answer)
  | .takeChangedDmx, .dmx answer => some (.take (answer.or
      (if s.link.dmxStore.count = 0 then none else t.station.map Station.dmxFrame)))
  | .flush, .done => some .flush
  | _, _ => none

/-- How an operation that was answered used the store of RDM frames. -/
def rdmUse? : Operation → Answer → Option (Use RdmFrame)
  | .takeRdm, .rdm answer => some (.take answer)
  | .peekRdm, .rdm answer => some (.look answer)
  | .flush, .done => some .flush
  | _, _ => none

/-- Let something happen, and tell how the stores are used: the frames that the journal
says were published are published to them, and operations read them as they answer. -/
def happen (s : Node H d r) : Happening H → Checked (Used H d r)
  | .publish time frame => do
    let ((), link) ← Link.publish time (some frame) s.link
    pure {
      dmx := ([frame].filterMap Frame.dmx?).map .publish
      rdm := ([frame].filterMap Frame.rdm?).map .publish
      node := { s with link } }
  | .act (.disturb change) => pure { dmx := [], rdm := [], node := s.disturb change }
  | .act (.perform operation) => do
    let (answer, t) ← perform operation s
    let frames := t.link.line.journal.publications.drop s.link.line.journal.publications.length
    pure {
      dmx := (frames.filterMap Frame.dmx?).map .publish ++ (dmxUse? s t operation answer).toList
      rdm := (frames.filterMap Frame.rdm?).map .publish ++ (rdmUse? operation answer).toList
      node := t }

/-- Let things happen one after the other, and tell how the stores are used. -/
def live (s : Node H d r) : List (Happening H) → Checked (Used H d r)
  | [] => pure { dmx := [], rdm := [], node := s }
  | happening :: rest => do
    let first ← s.happen happening
    let later ← first.node.live rest
    pure { dmx := first.dmx ++ later.dmx, rdm := first.rdm ++ later.rdm, node := later.node }

def withStores (s : Node H d r) (dmxStore : Frame.Store DmxFrame d)
    (rdmStore : Frame.Store RdmFrame r) : Node H d r :=
  { s with link := { s.link with dmxStore, rdmStore } }

omit [Hardware H] in
theorem Sound.withStores (h : s.Sound) (dmxStore : Frame.Store DmxFrame d)
    (rdmStore : Frame.Store RdmFrame r) : (s.withStores dmxStore rdmStore).Sound where
  sound := ⟨h.sound.receiver, h.sound.transmitter, h.sound.attached, h.sound.latest⟩
  wired := h.wired
  settled := ⟨h.settled.goesOn, h.settled.released, h.settled.driven⟩
  free := h.free
  attached := h.attached

omit [Hardware H] in
/-- A frame that is published goes into its store, and nothing else happens. -/
theorem Sound.publish (h : s.Sound) {time : Micros} {frame : Frame} {link : Link H d r}
    (published : Link.publish time (some frame) s.link = .ok ((), link)) :
    ({ s with link } : Node H d r).Sound ∧ s.link.scene.Publishes [frame] link.scene := by
  have settled := h.settled
  cases frame with
  | dmx frame =>
      cases published
      exact ⟨⟨⟨h.sound.publish time (some (.dmx frame)), h.wired, ⟨settled.goesOn, settled.released,
        settled.driven⟩⟩, h.free, h.attached⟩, .publish time (some (.dmx frame))⟩
  | rdm frame =>
      cases published
      exact ⟨⟨⟨h.sound.publish time (some (.rdm frame)), h.wired, ⟨settled.goesOn, settled.released,
        settled.driven⟩⟩, h.free, h.attached⟩, .publish time (some (.rdm frame))⟩

omit [Hardware H] in
theorem dmxUse?_eq_none {operation : Operation} {answer : Answer} (other : ¬ operation.Reads) :
    dmxUse? s t operation answer = none := by
  cases operation <;> first | rfl | exact absurd trivial other

theorem rdmUse?_eq_none {operation : Operation} {answer : Answer} (other : ¬ operation.Reads) :
    rdmUse? operation answer = none := by
  cases operation <;> first | rfl | exact absurd trivial other

/-- What does not read takes nothing from the stores. -/
theorem not_kinds_read {operation : Operation} (other : ¬ operation.Reads) :
    ¬ operation.kinds .read := by
  cases operation <;>
    first | exact absurd trivial other | simp [Operation.kinds, IsFrameless, IsSteering]

/-- What an operation that reads does is to use the stores as it answers. -/
theorem wp_reading {operation : Operation} (reads : operation.Reads) :
    WP (fun _ => False) (perform operation) (fun answer t => Attached.Reads
      (dmxUse? s t operation answer).toList (rdmUse? operation answer).toList s.link t.link) s := by
  have absent : Attached.Reads [] [] s.link s.link := ⟨.nil _, .nil _, rfl⟩
  cases present : s.station with
  | none =>
      cases operation <;> first
        | exact (wp_onStation_none present).mpr absent
        | exact reads.elim
  | some station =>
      cases operation with
      | takeDmx =>
          exact (wp_onStation_some present).mpr
            (WP.bind Attached.wp_takeDmx fun _ _ took => took.1)
      | peekDmx =>
          exact (wp_onStation_some present).mpr
            (WP.bind Attached.wp_peekDmx fun _ _ looked => looked)
      | takeChangedDmx =>
          exact (wp_onStation_some present).mpr
            (WP.bind Attached.wp_takeChangedDmx fun _ _ took => took)
      | takeRdm =>
          exact (wp_onStation_some present).mpr
            (WP.bind Attached.wp_takeRdm fun _ _ took => took)
      | peekRdm =>
          exact (wp_onStation_some present).mpr
            (WP.bind Attached.wp_peekRdm fun _ _ looked => looked)
      | flush =>
          exact (wp_onStation_some present).mpr
            (WP.bind Attached.wp_flush fun _ _ flushed => flushed)
      | _ => exact reads.elim

/-- What an operation does at the stores is to publish what the journal says, and to
read as it answers. -/
theorem Sound.perform_uses (h : s.Sound) {operation : Operation} {answer : Answer}
    (performed : perform operation s = .ok (answer, t)) :
    ∃ frames, t.link.line.journal.publications = s.link.line.journal.publications ++ frames ∧
      s.link.dmxStore.Runs ((frames.filterMap Frame.dmx?).map .publish ++
        (dmxUse? s t operation answer).toList) t.link.dmxStore ∧
      s.link.rdmStore.Runs ((frames.filterMap Frame.rdm?).map .publish ++
        (rdmUse? operation answer).toList) t.link.rdmStore := by
  by_cases reads : operation.Reads
  · obtain ⟨dmx, rdm, line⟩ := (wp_reading reads).elim performed
    refine ⟨[], ?_, dmx, rdm⟩
    rw [line, List.append_nil]
  · have moves := ((wp_perform h operation).elim performed).moves
    obtain ⟨frames, published⟩ := moves.steps.publishes (not_kinds_read reads)
    rw [dmxUse?_eq_none reads, rdmUse?_eq_none reads, Option.toList_none, Option.toList_none]
    simp only [List.append_nil]
    exact ⟨frames, published.publications, published.runs⟩

omit [Hardware H] in
theorem published_dmxUse? (operation : Operation) (answer : Answer) :
    Use.published (dmxUse? s t operation answer).toList = [] := by
  unfold dmxUse?
  split <;> rfl

theorem published_rdmUse? (operation : Operation) (answer : Answer) :
    Use.published (rdmUse? operation answer).toList = [] := by
  unfold rdmUse?
  split <;> rfl

/-- What happens tells the frames that it publishes, and the stores run as they are used, as long
as their counters tell the frames apart. -/
structure Uses (s : Node H d r) (used : Used H d r) : Prop where
  sound : used.node.Sound
  told : ∃ frames, used.node.link.line.journal.publications =
    s.link.line.journal.publications ++ frames ∧
    Use.published used.dmx = frames.filterMap Frame.dmx? ∧
    Use.published used.rdm = frames.filterMap Frame.rdm?
  dmx : Use.Counted (2 ^ d) s.link.dmxStore.lag used.dmx →
    s.link.dmxStore.Runs used.dmx used.node.link.dmxStore
  rdm : Use.Counted (2 ^ r) s.link.rdmStore.lag used.rdm →
    s.link.rdmStore.Runs used.rdm used.node.link.rdmStore

theorem Sound.happen_uses (h : s.Sound) {happening : Happening H} {used : Used H d r}
    (happened : s.happen happening = .ok used) : s.Uses used := by
  cases happening with
  | publish time frame =>
      rw [happen] at happened
      obtain ⟨_, published, left⟩ := Checked.bind_ok happened
      cases left
      obtain ⟨sound, stored⟩ := h.publish published
      obtain ⟨dmx, rdm⟩ := stored.runs
      exact ⟨sound, ⟨[frame], stored.publications, Use.published_map_publish _,
        Use.published_map_publish _⟩, fun _ => dmx, fun _ => rdm⟩
  | act action =>
      cases action with
      | disturb change =>
          cases happened
          have acted : s.act (.disturb change) = .ok (s.disturb change) := rfl
          exact ⟨(h.act acted).sound h, ⟨[], (List.append_nil _).symm, rfl, rfl⟩,
            fun _ => .nil _, fun _ => .nil _⟩
      | perform operation =>
          rw [happen] at happened
          obtain ⟨⟨answer, t⟩, performed, left⟩ := Checked.bind_ok happened
          cases left
          obtain ⟨frames, published, dmx, rdm⟩ := h.perform_uses performed
          have new : t.link.line.journal.publications.drop s.link.line.journal.publications.length =
              frames := by
            rw [published, List.drop_left]
          refine ⟨((wp_perform h operation).elim performed).sound h, ⟨frames, published, ?_, ?_⟩,
            fun _ => new.symm ▸ dmx, fun _ => new.symm ▸ rdm⟩
          · rw [new, Use.published_append, Use.published_map_publish, published_dmxUse?,
              List.append_nil]
          · rw [new, Use.published_append, Use.published_map_publish, published_rdmUse?,
              List.append_nil]

/-- A publication or a reading ends, whatever the hardware does. -/
theorem happen_ends {happening : Happening H} (reads : happening.Reads) :
    ∃ used, s.happen happening = .ok used := by
  cases happening with
  | publish time frame => exact ⟨_, rfl⟩
  | act action =>
      cases action with
      | disturb change => exact reads.elim
      | perform operation =>
          obtain ⟨answer, t, performed, _⟩ := (wp_reading (s := s) reads).exists_ok
          rw [happen, performed]
          exact ⟨_, rfl⟩

/-- Publications and readings end. -/
theorem live_ends {happenings : List (Happening H)}
    (reads : ∀ happening ∈ happenings, happening.Reads) : ∃ used, s.live happenings = .ok used := by
  induction happenings generalizing s with
  | nil => exact ⟨_, rfl⟩
  | cons happening rest ih =>
      obtain ⟨first, others⟩ := List.forall_mem_cons.mp reads
      obtain ⟨used, happened⟩ := happen_ends (s := s) first
      obtain ⟨later, lived⟩ := ih others (s := used.node)
      rw [live, happened]
      change ∃ used', (used.node.live rest >>= _) = .ok used'
      rw [lived]
      exact ⟨_, rfl⟩

omit [Hardware H] in
/-- An act of a station that only answers changes nothing at its node. -/
theorem onStation_answers {act : Act (Attached H d r) Answer} {answer : Answer} {station : Station}
    (present : s.station = some station)
    (answers : WP (fun _ => False) act (fun a t => a = answer ∧ t = { station, link := s.link })
      { station, link := s.link }) : onStation act s = .ok (answer, s) := by
  have ends : WP (fun _ => False) (onStation act) (fun a t => a = answer ∧ t = s) s := by
    apply (wp_onStation_some present).mpr
    apply answers.mono
    rintro _ _ ⟨rfl, rfl⟩
    exact ⟨rfl, by rw [← present]⟩
  obtain ⟨_, _, ended, rfl, rfl⟩ := ends.exists_ok
  exact ended

/-- A station takes the oldest unread frame of a store, and leaves the others. -/
theorem take_unread {station : Station} (present : s.station = some station) :
    (∃ t, perform .takeDmx s = .ok (.dmx s.link.dmxStore.unread.head?, t) ∧
      t.link.dmxStore.unread = s.link.dmxStore.unread.tail) ∧
    ∃ t, perform .takeRdm s = .ok (.rdm s.link.rdmStore.unread.head?, t) ∧
      t.link.rdmStore.unread = s.link.rdmStore.unread.tail := by
  constructor
  · have takes : WP (fun _ => False) (perform .takeDmx) (fun answer t =>
        answer = .dmx s.link.dmxStore.unread.head? ∧
          t.link.dmxStore.unread = s.link.dmxStore.unread.tail) s := by
      apply (wp_onStation_some present).mpr
      apply WP.bind Attached.wp_takeDmx
      rintro answer t ⟨reads, _⟩
      obtain ⟨rfl, left⟩ := reads.dmxStore.takes
      exact ⟨rfl, left⟩
    obtain ⟨_, t, ended, rfl, left⟩ := takes.exists_ok
    exact ⟨t, ended, left⟩
  · have takes : WP (fun _ => False) (perform .takeRdm) (fun answer t =>
        answer = .rdm s.link.rdmStore.unread.head? ∧
          t.link.rdmStore.unread = s.link.rdmStore.unread.tail) s := by
      apply (wp_onStation_some present).mpr
      apply WP.bind Attached.wp_takeRdm
      rintro answer t reads
      obtain ⟨rfl, left⟩ := reads.rdmStore.takes
      exact ⟨rfl, left⟩
    obtain ⟨_, t, ended, rfl, left⟩ := takes.exists_ok
    exact ⟨t, ended, left⟩

/-- A poll that finds its store empty changes nothing, the buffer of the station included. -/
theorem poll_empty {station : Station} (present : s.station = some station) :
    (s.link.dmxStore.unread = [] → ∀ operation ∈ [.takeDmx, .peekDmx, .takeChangedDmx],
      perform operation s = .ok (.dmx none, s)) ∧
    (s.link.rdmStore.unread = [] → ∀ operation ∈ [.takeRdm, .peekRdm],
      perform operation s = .ok (.rdm none, s)) := by
  constructor
  · intro empty operation mem
    simp only [List.mem_cons, List.not_mem_nil, or_false] at mem
    rcases mem with rfl | rfl | rfl
    · exact onStation_answers present
        (WP.bind_iff.mpr ((Attached.wp_takeDmx_empty empty).mpr ⟨rfl, rfl⟩))
    · exact onStation_answers present
        (WP.bind_iff.mpr ((Attached.wp_peekDmx_empty empty).mpr ⟨rfl, rfl⟩))
    · exact onStation_answers present
        (WP.bind_iff.mpr ((Attached.wp_takeChangedDmx_empty empty).mpr ⟨rfl, rfl⟩))
  · intro empty operation mem
    simp only [List.mem_cons, List.not_mem_nil, or_false] at mem
    rcases mem with rfl | rfl
    · exact onStation_answers present
        (WP.bind_iff.mpr ((Attached.wp_takeRdm_empty empty).mpr ⟨rfl, rfl⟩))
    · exact onStation_answers present
        (WP.bind_iff.mpr ((Attached.wp_peekRdm_empty empty).mpr ⟨rfl, rfl⟩))

end Node

end Dmx512
