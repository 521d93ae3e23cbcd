import Dmx512.Reception.Signal

/-!
# When the latest RDM frame ended

A receiver keeps the time at which it completed an RDM frame until it completes the next
one, whatever else it hears: `latestEnd` says what it then keeps.
-/

namespace Dmx512

open Standard

/-- When the latest RDM frame ended, if it did so at `ending` before a frame was completed
at `now`, or none was. -/
def latestEnd (ending now : Micros) : Option Frame → Micros
  | some (.rdm _) => now
  | some (.dmx _) | none => ending

namespace Receiver

variable {r t : Receiver} {ending now : Micros}

/-- What ends with a receiver leaves one that keeps when the latest RDM frame ended. -/
def Dates (ending now : Micros) (act : Checked (Receiver × Option Frame)) : Prop :=
  ∀ t frame, act = .ok (t, frame) → t.counters.rdmReceiveEnd = latestEnd ending now frame

theorem Dates.of_none (same : t.counters.rdmReceiveEnd = ending) :
    Dates ending now (.ok (t, none)) := by
  intro _ _ ended
  cases ended
  exact same

theorem dates_publishRdm : Dates ending now (r.publishRdm now) := by
  intro t frame ended
  obtain ⟨data, _, done⟩ := Checked.bind_ok ended
  cases done
  rfl

theorem dates_publishDmx (same : r.counters.rdmReceiveEnd = ending) :
    Dates ending now r.publishDmx := by
  intro t frame ended
  obtain ⟨bytes, _, done⟩ := Checked.bind_ok ended
  cases bytes with
  | nil => contradiction
  | cons startCode slots =>
      cases done
      exact same

theorem dates_onTimeout : Dates r.counters.rdmReceiveEnd now (r.onTimeout now) := by
  rw [onTimeout]
  split
  · exact dates_publishDmx rfl
  · exact .of_none rfl

theorem dates_onBreak : Dates r.counters.rdmReceiveEnd now (r.onBreak now) := by
  intro t frame ended
  obtain ⟨⟨m, frame⟩, timed, done⟩ := Checked.bind_ok ended
  cases done
  exact dates_onTimeout m frame timed

section Bytes

variable (r) (byte : UInt8)

theorem dates_onSlot : Dates r.counters.rdmReceiveEnd now (r.onSlot byte now) := by
  intro t frame ended
  obtain ⟨buffer, _, done⟩ := Checked.bind_ok ended
  dsimp only at done
  split at done
  · refine dates_publishDmx ?_ t frame done
    rfl
  · cases done
    rfl

theorem counters_append? (added : r.append? byte = some t) : t.counters = r.counters := by
  rw [append?] at added
  split at added
  · cases added
    rfl
  · contradiction

theorem counters_onMessageByte : (r.onMessageByte byte).counters = r.counters := by
  rw [onMessageByte]
  cases added : r.append? byte with
  | none => rfl
  | some m =>
      have kept := counters_append? r byte added
      dsimp only
      split <;> exact kept

theorem counters_onChecksumHigh : (r.onChecksumHigh byte).counters = r.counters := by
  rw [onChecksumHigh]
  cases added : r.append? byte with
  | none => rfl
  | some m =>
      have kept := counters_append? r byte added
      exact kept

theorem dates_onChecksumLow : Dates r.counters.rdmReceiveEnd now (r.onChecksumLow byte now) := by
  rw [onChecksumLow]
  cases added : r.append? byte with
  | none => exact .of_none rfl
  | some m =>
      have kept := congrArg ReceiveCounters.rdmReceiveEnd (counters_append? r byte added)
      dsimp only
      split
      · exact dates_publishRdm
      · exact .of_none kept

theorem counters_onPreamble : (r.onPreamble byte).counters = r.counters := by
  rw [onPreamble]
  cases added : r.append? byte with
  | none => rfl
  | some m =>
      have kept := counters_append? r byte added
      dsimp only
      split <;> exact kept

theorem counters_onEncodedUid : (r.onEncodedUid byte).counters = r.counters := by
  rw [onEncodedUid]
  cases added : r.append? byte with
  | none => rfl
  | some m =>
      have kept := counters_append? r byte added
      dsimp only
      split <;> exact kept

theorem dates_onEncodedSum : Dates r.counters.rdmReceiveEnd now (r.onEncodedSum byte now) := by
  rw [onEncodedSum]
  cases added : r.append? byte with
  | none => exact .of_none rfl
  | some m =>
      have kept := congrArg ReceiveCounters.rdmReceiveEnd (counters_append? r byte added)
      dsimp only
      split
      · exact dates_publishRdm
      · exact .of_none kept

theorem counters_onIdleByte (ended : r.onIdleByte byte = .ok t) : t.counters = r.counters := by
  rw [onIdleByte] at ended
  split at ended
  · obtain ⟨buffer, _, done⟩ := Checked.bind_ok ended
    cases done
    rfl
  · cases ended
    rfl

theorem rdmReceiveEnd_onStartCode (ended : r.onStartCode byte now = .ok t) :
    t.counters.rdmReceiveEnd = r.counters.rdmReceiveEnd := by
  rw [onStartCode] at ended
  split at ended
  · obtain ⟨buffer, _, done⟩ := Checked.bind_ok ended
    cases done
    rfl
  split at ended
  · obtain ⟨buffer, _, done⟩ := Checked.bind_ok ended
    cases done
    rfl
  · cases ended
    rfl

theorem dates_onByte : Dates r.counters.rdmReceiveEnd now (r.onByte byte now) := by
  have same {t : Receiver} (h : t.counters = r.counters) :
      t.counters.rdmReceiveEnd = r.counters.rdmReceiveEnd :=
    congrArg ReceiveCounters.rdmReceiveEnd h
  rw [onByte]
  cases r.state with
  | idle =>
      intro t frame ended
      obtain ⟨m, idle, done⟩ := Checked.bind_ok ended
      cases done
      exact same (counters_onIdleByte r byte idle)
  | lineBreak =>
      intro t frame ended
      obtain ⟨m, started, done⟩ := Checked.bind_ok ended
      cases done
      exact rdmReceiveEnd_onStartCode r byte started
  | dmxData => exact dates_onSlot r byte
  | rdmData => exact .of_none (same (counters_onMessageByte r byte))
  | checksumHigh => exact .of_none (same (counters_onChecksumHigh r byte))
  | checksumLow => exact dates_onChecksumLow r byte
  | discoveryPreamble => exact .of_none (same (counters_onPreamble r byte))
  | discoveryUid => exact .of_none (same (counters_onEncodedUid r byte))
  | discoveryChecksum => exact dates_onEncodedSum r byte

end Bytes

/-- Whatever a receiver hears, it keeps when the latest RDM frame ended. -/
theorem dates_hear (signal : Signal) : Dates r.counters.rdmReceiveEnd now (r.hear signal now) := by
  cases signal with
  | lineBreak => exact dates_onBreak
  | byte value => exact dates_onByte r value
  | damaged => exact .of_none rfl

end Receiver

end Dmx512
