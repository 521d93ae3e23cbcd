import Dmx512.Proofs.Reception.Delivery
import Dmx512.Proofs.Reception.Scanning

/-!
# Which RDM frames a receiver publishes

An RDM frame is a discovery response, which begins with a preamble byte, or a message with
its checksum. Of such a message the receiver checks everything that `Message.verify` does
but the least length: what `verify` rejects is too short for a header. Conversely every
packet that passes `verify` is published.
-/

namespace Dmx512

open Standard

namespace RdmFrame

/-- A frame begins with a preamble byte, or is a message with its checksum. -/
def IsAdmitted (frame : RdmFrame) : Prop :=
  frame.data.head? = some preambleByte ∨
    ∃ message, Message.Framed message ∧ frame.data = Message.packet message

/-- A frame that holds the packet of a message is no discovery response. -/
theorem kind_of_framed {frame : RdmFrame} {message : List UInt8}
    (framed : Message.Framed message) (data : frame.data = Message.packet message) :
    frame.kind = .message := by
  rw [RdmFrame.kind, data, framed.head?_packet, if_neg (by decide)]

/-- A message that is no discovery response passes its check unless it is too short. -/
theorem IsAdmitted.verify {frame : RdmFrame} (h : frame.IsAdmitted)
    (kind : frame.kind = .message) :
    ∃ message, Message.Framed message ∧ frame.data = Message.packet message ∧
      Message.verify frame.data =
        if message.length < messageMin then .error .tooShort else .ok () := by
  rcases h with head | ⟨message, framed, data⟩
  · rw [RdmFrame.kind, if_pos head] at kind
    cases kind
  · refine ⟨message, framed, data, ?_⟩
    rw [data, Message.verify_packet, framed.validate_eq]
    split <;> rfl

end RdmFrame

namespace Receiver

open Discovery

variable {r t : Receiver} {cause : Cause} {now : Micros} {frame : Option Frame}

/-- The second checksum byte publishes a message as long as it declares. -/
theorem WellFormed.framed_of_onChecksumLow {value : UInt8} (wf : r.WellFormed)
    (state : r.state = .checksumLow) {published : RdmFrame}
    (ended : r.onChecksumLow value now = .ok (t, some (.rdm published))) :
    ∃ message, Message.Framed message ∧ published.data = Message.packet message := by
  obtain ⟨message, high, u, shown, bytes, three, declares, ended', _, _, accepts, _⟩ :=
    wf.onChecksumLow state value now
  obtain ⟨_, _, _, _, _, index, code, _⟩ := wf.holds state
  cases ended.symm.trans ended'
  split at accepts
  case isFalse => cases accepts
  case isTrue accepted =>
  cases accepts
  have first : message[0]? = some rdmStartCode := by
    have kept : (message ++ [high])[0]? = message[0]? := List.getElem?_append_left (by omega)
    rw [← kept, ← bytes, rdmBytes, Buffer.getElem?_take _ (by omega) (by decide), code]
  refine ⟨message, ⟨first, accepted.2, declares⟩, ?_⟩
  rw [Message.packet, accepted.1, toBigEndian_bigEndian, bytes, List.append_assoc]
  rfl

/-- A receiver that constructs a discovery response has captured a preamble byte. -/
structure Admits (r : Receiver) : Prop where
  wellFormed : r.WellFormed
  response : r.state.IsDiscovery → ∃ captured, r.Scans captured ∧ Begun captured

namespace Admits

/-- Without a discovery response under construction there is nothing to say. -/
theorem of_other (wf : r.WellFormed) (other : ¬ r.state.IsDiscovery) : r.Admits :=
  ⟨wf, fun discovery => absurd discovery other⟩

theorem of_fresh (h : r.IsFresh) : r.Admits :=
  of_other h.wellFormed (by rw [h.state]; exact id)

/-- A byte between packets, or of a discovery response, goes on with a capture. -/
theorem byte_of_scans {captured : List UInt8} {value : UInt8} (wf : r.WellFormed)
    (wf' : t.WellFormed) (scans : r.Scans captured) (begun : Begun captured)
    (attended : r.attend (.signal (.byte value)) now = .ok (t, frame)) :
    t.Admits ∧ ∀ published, frame = some (.rdm published) → published.IsAdmitted := by
  obtain ⟨_, _, ended, goesOn⟩ := scans.byte wf value now
  cases attended.symm.trans ended
  split at goesOn
  · rename_i complete
    obtain ⟨rfl, scans'⟩ := goesOn
    refine ⟨⟨wf', fun _ => ⟨[], scans', .inl rfl⟩⟩, ?_⟩
    rintro published ⟨⟩
    exact .inl ((begun.capture value).head?_of_isWhole complete)
  · obtain ⟨rfl, scans'⟩ := goesOn
    exact ⟨⟨wf', fun _ => ⟨_, scans', begun.capture value⟩⟩, nofun⟩

/-- Every response keeps what is captured, and publishes only what is admitted. -/
theorem respond (h : r.Admits) (attended : r.attend cause now = .ok (t, frame)) :
    t.Admits ∧ ∀ published, frame = some (.rdm published) → published.IsAdmitted := by
  have wf : t.WellFormed := h.wellFormed.of_attend attended
  cases h.wellFormed.responds attended with
  | stale => exact ⟨h, nofun⟩
  | timeOut | damaged => exact ⟨of_other wf nofun, nofun⟩
  | lineBreak counters _ ends =>
      refine ⟨of_other wf nofun, ?_⟩
      rintro published rfl
      rcases ends with none | ⟨_, shown⟩
      · cases none
      · cases shown
  | startCode awaited began => exact ⟨of_other wf (begins_onStartCode began).other, nofun⟩
  | byte behind served proceeds =>
      by_cases idle : r.state = .idle
      · exact byte_of_scans h.wellFormed wf (.idle idle rfl) (.inl rfl) attended
      · by_cases discovery : r.state.IsDiscovery
        · obtain ⟨captured, scans, begun⟩ := h.response discovery
          exact byte_of_scans h.wellFormed wf scans begun attended
        · refine ⟨of_other wf fun response => ?_, ?_⟩
          · exact (proceeds.response response).elim idle discovery
          · rintro published rfl
            rcases proceeds.rdm published rfl with low | sum
            · rw [Receiver.onByte, low] at served
              exact .inr (h.wellFormed.framed_of_onChecksumLow low served)
            · exact absurd (show r.state.IsDiscovery by rw [sum]; trivial) discovery

end Admits

/-- Whatever a receiver lives through, only what is admitted is published. -/
theorem Admits.follows {story : List Occasion} (h : r.Admits) (follows : Follows r story t) :
    t.Admits ∧ ∀ o ∈ story, ∀ published, .rdm published ∈ o.published → published.IsAdmitted := by
  let admitting (story : List Occasion) (r : Receiver) : Prop :=
    r.Admits ∧ ∀ o ∈ story, ∀ published, .rdm published ∈ o.published → published.IsAdmitted
  have start : admitting [] r := ⟨h, nofun⟩
  refine follows.preserves admitting ?_ start
  intro before r cause now t frame ⟨admits, earlier⟩ attended
  obtain ⟨admits', admitted⟩ := admits.respond attended
  refine ⟨admits', List.forall_mem_append.mpr ⟨earlier, List.forall_mem_singleton.mpr ?_⟩⟩
  intro published shown
  exact admitted published (Option.mem_toList.mp shown)

/-- Behind a break, a packet that passes its check is published, and nothing else. -/
theorem verified_published {before packet rest : List Occasion} {first : Occasion}
    {bytes : List UInt8} (wf : r.WellFormed)
    (follows : Follows r (before ++ first :: (packet ++ rest)) t) (isBreak : first.IsBreak)
    (brings : Brings packet bytes) (valid : Message.verify bytes = .ok ()) :
    storyFrames packet = [.rdm { data := bytes }] := by
  obtain ⟨message, sum, wellFormed, rfl⟩ := Message.packet_of_verify valid
  exact packet_published wellFormed wf follows isBreak brings

end Receiver

end Dmx512
