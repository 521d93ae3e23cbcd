import Dmx512.Proofs.Node.Storage

/-!
# Stores that are read with interrupts in between

Between the steps of a reader a link serves interrupts, its hardware changes, and frames are
published. Whatever these are, the reading ends, and comes to this: the frames published until it
loaded their count last, then what it does at once, then the frames published since. The other
store takes in its own frames, and of the station only the buffer of the store may change.
-/

namespace Dmx512

open Act
open Dmx512.Frame (Copier Desk Reader Task)

variable {H : Type} {d r k l : Nat} {α β : Type} {allowed : Fault → Prop}

def Attached.node (s : Attached H d r) : Node H d r := { link := s.link, station := some s.station }

namespace Link

variable [Hardware H]

/-- What comes in between publishes frames, and stops with no fault. -/
theorem wp_interrupt {s : Node H d r} (h : s.Sound) (interruption : Interruption H) :
    WP allowed (interrupt interruption) (fun _ link => ({ s with link } : Node H d r).Sound ∧
      ∃ frames, s.link.scene.Publishes frames link.scene) s.link := by
  cases interruption with
  | serve interrupt =>
      have serves : Does allowed free (· = .interrupt)
          (Link.serve interrupt : Act (Link H d r) Unit) := .serve (by rfl) interrupt
      refine (serves s.link h.free h.sound).mono fun _ link moves => ?_
      have performed : Node.Performed (· = .interrupt) [] s { s with link } :=
        .of_calm h moves (fun _ => .inl) (by simp)
      exact ⟨performed.sound h, moves.steps.publishes (by simp)⟩
  | disturb change =>
      have performed : Node.Performed (· = .interrupt) [] s (s.disturb change) :=
        .of_scene_eq h rfl rfl rfl
      exact ⟨performed.sound h, [], .refl _⟩
  | publish time frame =>
      have ends : ∃ link, publish time (some frame) s.link = .ok ((), link) := ⟨_, rfl⟩
      obtain ⟨link, ended⟩ := ends
      obtain ⟨sound, published⟩ := h.publish ended
      rw [interrupt, WP, ended]
      exact ⟨sound, _, published⟩

theorem wp_undergo {s : Node H d r} (h : s.Sound) (interruption : Interruption H) :
    WP allowed (undergo interruption) (fun frames link => ({ s with link } : Node H d r).Sound ∧
      s.link.scene.Publishes frames link.scene) s.link := by
  rw [undergo, WP.bind_iff, WP.get_iff, WP.bind_iff]
  refine (wp_interrupt h interruption).mono ?_
  rintro _ link ⟨sound, frames, published⟩
  rw [WP.bind_iff, WP.get_iff, WP.pure_iff]
  have told : link.line.journal.publications = s.link.line.journal.publications ++ frames :=
    published.publications
  rw [told, List.drop_left]
  exact ⟨sound, published⟩

end Link

namespace Shelf

variable {shelf : Shelf H d r α k} {other : Shelf H d r β l}

/-- Two shelves that hold what is published, and of which one is read without the other. -/
structure Beside (shelf : Shelf H d r α k) (other : Shelf H d r β l) : Prop where
  withStore (store : Frame.Store α k) (link : Link H d r) : ∃ dmxStore rdmStore,
    shelf.withStore store link = { link with dmxStore, rdmStore }
  apart (store : Frame.Store α k) (link : Link H d r) :
    other.store (shelf.withStore store link) = other.store link
  publishes {link link' : Link H d r} {frames : List Frame} :
    link.scene.Publishes frames link'.scene →
      shelf.store link' = (shelf.store link).pushAll (frames.filterMap shelf.kind?) ∧
      other.store link' = (other.store link).pushAll (frames.filterMap other.kind?)

theorem dmx_beside_rdm : (dmx : Shelf H d r DmxFrame d).Beside rdm where
  withStore _ _ := ⟨_, _, rfl⟩
  apart _ _ := rfl
  publishes published := ⟨published.dmxStore, published.rdmStore⟩

theorem rdm_beside_dmx : (rdm : Shelf H d r RdmFrame r).Beside dmx where
  withStore _ _ := ⟨_, _, rfl⟩
  apart _ _ := rfl
  publishes published := ⟨published.rdmStore, published.dmxStore⟩

/-- From `s` to `t` frames were published, and beside that only a shelf was read. -/
structure Reads (shelf : Shelf H d r α k) (other : Shelf H d r β l) (frames : List Frame)
    (s t : Attached H d r) : Prop where
  sound : t.node.Sound
  publications : t.link.line.journal.publications = s.link.line.journal.publications ++ frames
  other : other.store t.link = (other.store s.link).pushAll (frames.filterMap other.kind?)
  station : t.station = shelf.withBuffer (shelf.buffer t.station) s.station

namespace Reads

variable {s m t : Attached H d r} {first second : List Frame}

theorem refl (sound : s.node.Sound) : Reads shelf other [] s s :=
  ⟨sound, (List.append_nil _).symm, rfl, (shelf.withBuffer_buffer _).symm⟩

theorem trans (h : Reads shelf other first s m) (h' : Reads shelf other second m t) :
    Reads shelf other (first ++ second) s t where
  sound := h'.sound
  publications := by rw [h'.publications, h.publications, List.append_assoc]
  other := by rw [h'.other, h.other, List.filterMap_append, Frame.Store.pushAll_append]
  station := by
    have station := h'.station
    rw [h.station, shelf.withBuffer_withBuffer] at station
    exact station

/-- A step of a reader changes what is on its shelf. -/
theorem place (beside : shelf.Beside other) (sound : s.node.Sound) (desk : Desk α k) :
    Reads shelf other [] s (shelf.place desk s) := by
  obtain ⟨dmxStore, rdmStore, link⟩ := beside.withStore desk.store s.link
  have line : (shelf.place desk s).link.line = s.link.line := by
    rw [Shelf.place, link]
  refine ⟨?_, by rw [line, List.append_nil], beside.apart _ _, ?_⟩
  · have kept := sound.withStores dmxStore rdmStore
    rw [Shelf.place, link]
    exact ⟨kept.toSteady, kept.free, kept.attached⟩
  · rw [Shelf.place, shelf.buffer_withBuffer]

end Reads

section Turns

variable [Hardware H] {copier : Copier α} {task : Task} {start : Desk α k} {reader : Reader α}
variable {s : Attached H d r}

/-- A turn keeps what the reader knows, and what is published meanwhile is told. -/
theorem wp_turn (beside : shelf.Beside other) (sound : s.node.Sound)
    (knows : reader.Knows copier task start (shelf.desk s)) (turn : Turn H) :
    WP allowed (shelf.turn copier task reader turn) (fun later t =>
      later.Knows copier task start (shelf.desk t) ∧ ∃ frames, Reads shelf other frames s t ∧
        later.seen ++ later.unseen =
          reader.seen ++ reader.unseen ++ frames.filterMap shelf.kind?) s := by
  cases turn with
  | step =>
      rw [Shelf.turn, Shelf.wp_work, shelf.desk_place]
      refine ⟨knows.step, [], .place beside sound _, ?_⟩
      rw [Reader.seen_append_unseen_step, List.filterMap_nil, List.append_nil]
  | meanwhile interruption =>
      rw [Shelf.turn, WP.bind_iff, Attached.wp_onLink]
      refine (Link.wp_undergo sound interruption).mono ?_
      rintro frames link ⟨sound', published⟩
      obtain ⟨own, others⟩ := beside.publishes published
      have desk : shelf.desk { s with link } = { shelf.desk s with
          store := (shelf.desk s).store.pushAll (frames.filterMap shelf.kind?) } := by
        rw [Shelf.desk, own]
        rfl
      refine ⟨?_, frames, ⟨sound', published.publications, others, ?_⟩, ?_⟩
      · rw [desk]
        exact knows.notice _
      · exact (shelf.withBuffer_buffer _).symm
      · exact (List.append_assoc _ _ _).symm

theorem wp_turns (beside : shelf.Beside other) (sound : s.node.Sound)
    (knows : reader.Knows copier task start (shelf.desk s)) (turns : List (Turn H)) :
    WP allowed (shelf.turns copier task turns reader) (fun later t =>
      later.Knows copier task start (shelf.desk t) ∧ ∃ frames, Reads shelf other frames s t ∧
        later.seen ++ later.unseen =
          reader.seen ++ reader.unseen ++ frames.filterMap shelf.kind?) s := by
  induction turns generalizing reader s with
  | nil =>
      refine ⟨knows, [], .refl sound, ?_⟩
      rw [List.filterMap_nil, List.append_nil]
  | cons turn rest ih =>
      rw [Shelf.turns]
      apply WP.bind (wp_turn beside sound knows turn)
      rintro later t ⟨knows', frames, reads, told⟩
      refine (ih reads.sound knows').mono ?_
      rintro last u ⟨knows'', frames', reads', told'⟩
      refine ⟨knows'', frames ++ frames', reads.trans reads', ?_⟩
      rw [told', told, List.filterMap_append, List.append_assoc]

/-- However a reading is interrupted, it ends, and is one use of the store among the frames that
were published meanwhile. -/
theorem wp_read (beside : shelf.Beside other) (sound : s.node.Sound) (copier : Copier α)
    (task : Task) (turns : List (Turn H)) :
    WP allowed (shelf.read copier task turns) (fun ended t =>
      ended.1.Served task (shelf.desk s) ended.2 (shelf.desk t) ∧
      ∃ frames, Reads shelf other frames s t ∧
        ended.1.seen ++ ended.1.unseen = frames.filterMap shelf.kind?) s := by
  apply WP.bind (wp_turns beside sound (.begin _) turns)
  rintro reader t ⟨knows, frames, reads, told⟩
  obtain ⟨served, stays⟩ := knows.finish
  rw [Shelf.wp_work, shelf.desk_place]
  refine ⟨served, frames, ?_, stays.trans told⟩
  have placed := reads.trans
    (.place beside reads.sound (reader.finish copier task (shelf.desk t)).2)
  rwa [List.append_nil] at placed

/-- A reading that finds nothing leaves the station as it was. -/
theorem read_nothing (beside : shelf.Beside other) (sound : s.node.Sound)
    {turns : List (Turn H)} {t : Attached H d r}
    (ended : shelf.read copier task turns s = .ok ((reader, none), t))
    (few : (shelf.store s.link).lag + reader.seen.length < Frame.Store.counts) :
    t.station = s.station := by
  have holds : WP (fun _ => False) (shelf.read copier task turns) _ s :=
    wp_read beside sound copier task turns
  obtain ⟨served, frames, reads, _⟩ := holds.elim ended
  have buffer : shelf.buffer t.station = shelf.buffer s.station := served.idle few rfl
  rw [reads.station, buffer, shelf.withBuffer_buffer]

end Turns

end Shelf

end Dmx512
