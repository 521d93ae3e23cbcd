import Dmx512.Proofs.Act
import Dmx512.Proofs.Frame.Reader
import Dmx512.Station.Reading

/-!
# Stores that are read without an interrupt

Where nothing comes in between, a station takes, looks at and gives up frames as if it did so at
once. Each operation that reads has one equation here, and nothing beyond these unfolds a reader
that is left alone.
-/

namespace Dmx512

variable {H : Type} {d r k : Nat} {α : Type}

theorem Shelf.wp_work {β : Type} {allowed : Fault → Prop} {shelf : Shelf H d r α k}
    {act : Frame.Desk α k → β × Frame.Desk α k} {post : β → Attached H d r → Prop}
    {s : Attached H d r} :
    Act.WP allowed (shelf.work act) post s ↔
      post (act (shelf.desk s)).1 (shelf.place (act (shelf.desk s)).2 s) := Iff.rfl

theorem Shelf.readAtOnce_eq (shelf : Shelf H d r α k) (task : Frame.Task) (s : Attached H d r) :
    shelf.readAtOnce task s =
      pure ((task.atOnce (shelf.desk s)).1, shelf.place (task.atOnce (shelf.desk s)).2 s) := by
  rw [← Frame.Reader.finish_atOnce .atOnce task (shelf.desk s)]
  rfl

namespace Attached

variable (s : Attached H d r)

theorem takeDmx_eq : takeDmx s =
    match s.link.dmxStore.pop? with
    | none => pure (none, s)
    | some (frame, dmxStore) => pure (some frame, {
        station := { s.station with dmxFrame := frame }
        link := { s.link with dmxStore } }) := by
  have desk : (Shelf.dmx.desk s).store.pop? = s.link.dmxStore.pop? := rfl
  rw [takeDmx, Shelf.readAtOnce_eq, Frame.Task.atOnce, desk]
  cases s.link.dmxStore.pop? <;> rfl

theorem peekDmx_eq : peekDmx s =
    match s.link.dmxStore.peek? with
    | none => pure (none, s)
    | some frame =>
        pure (some frame, { s with station := { s.station with dmxFrame := frame } }) := by
  have desk : (Shelf.dmx.desk s).store.peek? = s.link.dmxStore.peek? := rfl
  rw [peekDmx, Shelf.readAtOnce_eq, Frame.Task.atOnce, desk]
  cases s.link.dmxStore.peek? <;> rfl

theorem takeRdm_eq : takeRdm s =
    match s.link.rdmStore.pop? with
    | none => pure (none, s)
    | some (frame, rdmStore) => pure (some frame, {
        station := { s.station with rdmFrame := frame }
        link := { s.link with rdmStore } }) := by
  have desk : (Shelf.rdm.desk s).store.pop? = s.link.rdmStore.pop? := rfl
  rw [takeRdm, Shelf.readAtOnce_eq, Frame.Task.atOnce, desk]
  cases s.link.rdmStore.pop? <;> rfl

theorem peekRdm_eq : peekRdm s =
    match s.link.rdmStore.peek? with
    | none => pure (none, s)
    | some frame =>
        pure (some frame, { s with station := { s.station with rdmFrame := frame } }) := by
  have desk : (Shelf.rdm.desk s).store.peek? = s.link.rdmStore.peek? := rfl
  rw [peekRdm, Shelf.readAtOnce_eq, Frame.Task.atOnce, desk]
  cases s.link.rdmStore.peek? <;> rfl

theorem flush_eq : flush s = pure ((), { s with link := { s.link with
    dmxStore := s.link.dmxStore.clear, rdmStore := s.link.rdmStore.clear } }) := by
  change (Shelf.dmx.readAtOnce .flush s >>= fun p => Shelf.rdm.readAtOnce .flush p.2 >>= fun q =>
    pure ((), q.2)) = _
  rw [Shelf.readAtOnce_eq]
  change (Shelf.rdm.readAtOnce .flush _ >>= fun q => pure ((), q.2)) = _
  rw [Shelf.readAtOnce_eq]
  rfl

end Attached

end Dmx512
