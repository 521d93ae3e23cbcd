import Dmx512.Bench
import Dmx512.Proofs.Link.Intake

/-!
# The receive queue and the clock of a bench

What a bench has received is a queue in the sense of `ReceiveQueue`. An entry whose
status bits say nothing of the line is never taken, so that the view ends there. Its
clock moves by the same step at every reading, and by nothing else that the link does.
-/

namespace Dmx512

def Received.signal? (entry : Received) : Option Signal :=
  (Line.Status.ofBits entry.status).signal? entry.byte

/-- The flags of the transmit queue say nothing of what was received. -/
theorem Line.Status.signal?_congr {s t : Line.Status} {byte : UInt8}
    (breakDetected : s.breakDetected = t.breakDetected) (dataReady : s.dataReady = t.dataReady)
    (overrun : s.overrun = t.overrun) (parityError : s.parityError = t.parityError)
    (framingError : s.framingError = t.framingError) : s.signal? byte = t.signal? byte := by
  have error : s.hasReceiveError = t.hasReceiveError := by
    rw [hasReceiveError, hasReceiveError, overrun, parityError, framingError]
  rw [signal?, signal?, breakDetected, dataReady, error]

/-- The signals of the entries up to the first one that tells of none. -/
def receivedSignals : List Received → List Signal
  | [] => []
  | entry :: rest =>
    match entry.signal? with
    | none => []
    | some signal => signal :: receivedSignals rest

namespace Bench

theorem received_obey (order : Order) (b : Bench) (other : order ≠ .clearReceive) :
    (obey order b).received = b.received := by
  cases order with
  | clearReceive => contradiction
  | setAlarm alarm => cases alarm <;> rfl
  | cancelAlarm alarm => cases alarm <;> rfl
  | setBreak | allowReceive | allowTransmit | write => rfl

theorem or_and_distrib (a b mask : UInt32) :
    (a ||| b) &&& mask = (a &&& mask) ||| (b &&& mask) := by
  rw [← UInt32.toBitVec_inj]
  ext i
  simp [Bool.and_or_distrib_right]

/-- The status register shows the received bits of the foremost entry. -/
theorem statusBits_and (b : Bench) {mask : UInt32} (low : 0x1F &&& mask = mask)
    (others : 0x20 &&& mask = 0 ∧ 0x40 &&& mask = 0) :
    b.statusBits &&& mask = (b.received.head?.map Received.status).getD 0 &&& mask := by
  have room : (if b.transmitQueue.ready then (0x20 : UInt32) else 0) &&& mask = 0 := by
    split
    · exact others.1
    · exact UInt32.zero_and
  have idle : (if b.transmitQueue.idle then (0x40 : UInt32) else 0) &&& mask = 0 := by
    split
    · exact others.2
    · exact UInt32.zero_and
  rw [statusBits, or_and_distrib, or_and_distrib, room, idle,
    UInt32.or_zero, UInt32.or_zero, receiveBits]
  cases b.received with
  | nil => rfl
  | cons entry rest =>
      rw [UInt32.and_assoc, low]
      rfl

theorem signal?_statusBits (b : Bench) (byte : UInt8) :
    (Line.Status.ofBits b.statusBits).signal? byte =
      (Line.Status.ofBits ((b.received.head?.map Received.status).getD 0)).signal? byte := by
  have flag {mask : UInt32} (low : 0x1F &&& mask = mask)
      (others : 0x20 &&& mask = 0 ∧ 0x40 &&& mask = 0) :
      (b.statusBits &&& mask != 0) =
        ((b.received.head?.map Received.status).getD 0 &&& mask != 0) := by
    rw [b.statusBits_and low others]
  exact Line.Status.signal?_congr (flag (by decide) (by decide)) (flag (by decide) (by decide))
    (flag (by decide) (by decide)) (flag (by decide) (by decide)) (flag (by decide) (by decide))

theorem take_cons {b : Bench} {entry : Received} {rest : List Received}
    (received : b.received = entry :: rest) :
    Hardware.take b = (entry.byte, { b with received := rest }) := by
  change (match b.received with
    | [] => (0, b)
    | entry :: rest => (entry.byte, { b with received := rest })) = _
  rw [received]

theorem signal?_take (b : Bench) :
    (Line.Status.ofBits b.statusBits).signal? (Hardware.take b).1 =
      (receivedSignals b.received).head? := by
  rw [signal?_statusBits]
  cases received : b.received with
  | nil => rfl
  | cons entry rest =>
      rw [take_cons received]
      change entry.signal? = _
      rw [receivedSignals]
      cases entry.signal? <;> rfl

theorem receivedSignals_take (b : Bench) {signal : Signal} {rest : List Signal}
    (pending : receivedSignals b.received = signal :: rest) :
    receivedSignals (Hardware.take b).2.received = rest := by
  cases received : b.received with
  | nil =>
      rw [received] at pending
      cases pending
  | cons entry others =>
      rw [received, receivedSignals] at pending
      rw [take_cons received]
      split at pending
      · cases pending
      · exact (List.cons.inj pending).2

def receiveQueue : ReceiveQueue Bench where
  pending b := receivedSignals b.received
  sampled _ := rfl
  first b := signal?_take b.sync
  taken := receivedSignals_take
  ticked _ := rfl
  obeyed b order other := congrArg receivedSignals (received_obey order b other)

/-- What a clock shows after some readings. -/
def readingsFrom (clock step : Micros) : Nat → Micros
  | 0 => clock
  | n + 1 => readingsFrom (clock + step) step n

/-- A clock that readings do not move stands still. -/
theorem readingsFrom_zero (clock : Micros) (n : Nat) : readingsFrom clock 0 n = clock := by
  induction n generalizing clock with
  | zero => rfl
  | succ n ih => rw [readingsFrom, ih, UInt32.add_zero]

theorem clock_obey (order : Order) (b : Bench) :
    (obey order b).clock = b.clock ∧ (obey order b).step = b.step := by
  cases order with
  | setAlarm alarm => cases alarm <;> exact ⟨rfl, rfl⟩
  | cancelAlarm alarm => cases alarm <;> exact ⟨rfl, rfl⟩
  | setBreak | allowReceive | allowTransmit | clearReceive | write => exact ⟨rfl, rfl⟩

theorem clock_take (b : Bench) :
    (Hardware.take b).2.clock = b.clock ∧ (Hardware.take b).2.step = b.step := by
  obtain ⟨_, _, _, received, _⟩ := b
  cases received <;> exact ⟨rfl, rfl⟩

def clockwork : Clockwork Bench where
  toReceiveQueue := receiveQueue
  readings b := readingsFrom b.clock b.step
  shown _ := rfl
  passed _ := rfl
  kept_sample _ := rfl
  kept_take b := by rw [(clock_take b).1, (clock_take b).2]
  kept_obey b order := by
    have same := clock_obey order b
    rw [← same.1, ← same.2]
    rfl

end Bench

end Dmx512
