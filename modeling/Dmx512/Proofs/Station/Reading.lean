import Dmx512.Proofs.Frame.Queue
import Dmx512.Proofs.Station.Basic

/-!
# Reading is using the stores

What a station takes, looks at and gives up are uses of the two stores of its link,
with the answers that it gives, and nothing else happens to the link. A frame that
is taken is in the buffer of the station afterwards, whether it is answered or not.
-/

namespace Dmx512.Attached

open Act
open Dmx512.Frame (Use)

variable {H : Type} {d r : Nat} {allowed : Fault → Prop} {s : Attached H d r}

/-- From `s` to `t` only the stores of a link were used. -/
structure Reads (dmx : List (Use DmxFrame)) (rdm : List (Use RdmFrame)) (s t : Link H d r) :
    Prop where
  dmxStore : Frame.Store.Runs s.dmxStore dmx t.dmxStore
  rdmStore : Frame.Store.Runs s.rdmStore rdm t.rdmStore
  line : t.line = s.line

namespace Reads

variable {link : Link H d r}

theorem dmx {use : Use DmxFrame} {store : Frame.Store DmxFrame d}
    (served : link.dmxStore.Serves use store) :
    Reads [use] [] link { link with dmxStore := store } :=
  ⟨.cons served (.nil _), .nil _, rfl⟩

theorem rdm {use : Use RdmFrame} {store : Frame.Store RdmFrame r}
    (served : link.rdmStore.Serves use store) :
    Reads [] [use] link { link with rdmStore := store } :=
  ⟨.nil _, .cons served (.nil _), rfl⟩

end Reads

theorem wp_takeDmx : WP allowed takeDmx (fun answer t => Reads [.take answer] [] s.link t.link ∧
    ∀ frame, answer = some frame → t.station.dmxFrame = frame) s := by
  rw [WP, takeDmx_eq]
  cases popped : s.link.dmxStore.pop? with
  | none =>
      refine ⟨.dmx (.empty popped), ?_⟩
      rintro _ ⟨⟩
  | some taken => exact ⟨.dmx (.take popped), fun _ => Option.some_inj.mp⟩

/-- A frame that is there is taken into the buffer of the station. -/
theorem wp_takeDmx_some {post : Option DmxFrame → Attached H d r → Prop} {frame : DmxFrame}
    {rest : Frame.Store DmxFrame d} (popped : s.link.dmxStore.pop? = some (frame, rest)) :
    WP allowed takeDmx post s ↔ post (some frame) {
      station := { s.station with dmxFrame := frame }
      link := { s.link with dmxStore := rest } } := by
  rw [WP, takeDmx_eq, popped]
  rfl

theorem wp_peekDmx :
    WP allowed peekDmx (fun answer t => Reads [.look answer] [] s.link t.link) s := by
  rw [WP, peekDmx_eq]
  cases shown : s.link.dmxStore.peek? with
  | none => exact .dmx (shown ▸ .look s.link.dmxStore)
  | some frame => exact .dmx (shown ▸ .look s.link.dmxStore)

/-- A frame is taken even where its data is that of the frame answered last. -/
theorem wp_takeChangedDmx : WP allowed takeChangedDmx (fun answer t =>
    Reads [.take (answer.or (if s.link.dmxStore.count = 0 then none else t.station.dmxFrame))] []
      s.link t.link) s := by
  apply WP.bind wp_takeDmx
  rintro taken t ⟨reads, buffered⟩
  obtain ⟨found, _⟩ := reads.dmxStore.takes
  cases taken with
  | none =>
      have missing : s.link.dmxStore.count = 0 := by
        rw [← Frame.Store.length_unread, List.head?_eq_none_iff.mp found.symm, List.length_nil]
      simpa [changed?, missing] using reads
  | some frame =>
      have present : s.link.dmxStore.count ≠ 0 := by
        rw [← Frame.Store.length_unread]
        exact Nat.ne_of_gt (List.length_pos_of_mem (List.mem_of_head? found.symm))
      simp only [changed?, WP.bind_iff, WP.get_iff, WP.ite_iff, WP.pure_iff, wp_update,
        if_neg present]
      refine ⟨fun _ => ?_, fun _ => reads⟩
      rw [buffered frame rfl]
      exact reads

theorem wp_takeRdm :
    WP allowed takeRdm (fun answer t => Reads [] [.take answer] s.link t.link) s := by
  rw [WP, takeRdm_eq]
  cases popped : s.link.rdmStore.pop? with
  | none => exact .rdm (.empty popped)
  | some taken => exact .rdm (.take popped)

theorem wp_peekRdm :
    WP allowed peekRdm (fun answer t => Reads [] [.look answer] s.link t.link) s := by
  rw [WP, peekRdm_eq]
  cases shown : s.link.rdmStore.peek? with
  | none => exact .rdm (shown ▸ .look s.link.rdmStore)
  | some frame => exact .rdm (shown ▸ .look s.link.rdmStore)

theorem wp_flush : WP allowed flush (fun _ t => Reads [.flush] [.flush] s.link t.link) s := by
  rw [WP, flush_eq]
  exact ⟨.cons (.flush _) (.nil _), .cons (.flush _) (.nil _), rfl⟩

theorem wp_takeDmx_empty {post : Option DmxFrame → Attached H d r → Prop}
    (empty : s.link.dmxStore.unread = []) : WP allowed takeDmx post s ↔ post none s := by
  rw [WP, takeDmx_eq, Frame.Store.pop?_eq_none.mpr empty]
  rfl

theorem wp_peekDmx_empty {post : Option DmxFrame → Attached H d r → Prop}
    (empty : s.link.dmxStore.unread = []) : WP allowed peekDmx post s ↔ post none s := by
  rw [WP, peekDmx_eq, Frame.Store.peek?_eq, empty]
  rfl

theorem wp_takeChangedDmx_empty {post : Option DmxFrame → Attached H d r → Prop}
    (empty : s.link.dmxStore.unread = []) : WP allowed takeChangedDmx post s ↔ post none s := by
  rw [takeChangedDmx, WP.bind_iff, wp_takeDmx_empty empty]
  rfl

theorem wp_takeRdm_empty {post : Option RdmFrame → Attached H d r → Prop}
    (empty : s.link.rdmStore.unread = []) : WP allowed takeRdm post s ↔ post none s := by
  rw [WP, takeRdm_eq, Frame.Store.pop?_eq_none.mpr empty]
  rfl

theorem wp_peekRdm_empty {post : Option RdmFrame → Attached H d r → Prop}
    (empty : s.link.rdmStore.unread = []) : WP allowed peekRdm post s ↔ post none s := by
  rw [WP, peekRdm_eq, Frame.Store.peek?_eq, empty]
  rfl

end Dmx512.Attached
