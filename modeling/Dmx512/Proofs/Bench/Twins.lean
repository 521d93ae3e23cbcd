import Dmx512.Proofs.Bench.Queue
import Dmx512.Proofs.Line.Twins

/-!
# Twin benches

Of twin benches the second one has its clock ahead, and with it the alarms and the byte that is
leaving. Either both have received the same, or they are deaf twins: what they have received is
the same only while the link listens. Deaf twins deliver no interrupts to a waiting foreground,
as those would tell what is in the receive queue.
-/

namespace Dmx512

namespace TransmitQueue

/-- The queue of a clock that is ahead. -/
def later (offset : Micros) (q : TransmitQueue) : TransmitQueue :=
  { q with since := q.since + offset }

/-- Of two queues the second is of a clock that is ahead, or both are empty and the same. -/
def Ahead (offset : Micros) (q q' : TransmitQueue) : Prop :=
  q' = q.later offset ∨ q' = q ∧ q.level = 0

variable {offset : Micros} {q q' : TransmitQueue}

theorem later_shiftOut (q : TransmitQueue) (now : Micros) (level : Nat) :
    (q.later offset).shiftOut (now + offset) level = (q.shiftOut now level).later offset := by
  induction level generalizing q with
  | zero => rfl
  | succ level ih =>
      have next : { q.later offset with since := (q.later offset).since + q.shiftTime } =
          { q with since := q.since + q.shiftTime }.later offset := by
        have moved : q.since + offset + q.shiftTime = q.since + q.shiftTime + offset := by grind
        rw [later, later, moved]
      rw [shiftOut, shiftOut]
      simp only [later, elapsed_add_right]
      split
      · exact (congrArg (shiftOut · (now + offset) level) next).trans (ih _)
      · rfl

theorem shiftOut_zero (now : Micros) (level : Nat) (empty : level = 0) :
    q.shiftOut now level = { q with level := 0 } := by
  subst empty
  rfl

theorem Ahead.sync (h : q.Ahead offset q') (now : Micros) :
    (q.sync now).Ahead offset (q'.sync (now + offset)) := by
  rcases h with rfl | ⟨rfl, empty⟩
  · exact .inl (later_shiftOut q now q.level)
  · refine .inr ?_
    rw [TransmitQueue.sync, TransmitQueue.sync, shiftOut_zero _ _ empty, shiftOut_zero _ _ empty]
    exact ⟨rfl, rfl⟩

theorem Ahead.put (h : q.Ahead offset q') (now : Micros) :
    (q.put now).Ahead offset (q'.put (now + offset)) := by
  have synced := h.sync now
  rw [TransmitQueue.put, TransmitQueue.put]
  generalize q.sync now = p at synced
  generalize q'.sync (now + offset) = p' at synced
  rcases synced with rfl | ⟨rfl, empty⟩
  · by_cases unlimited : p.capacity.isNone = true
    · simp [Ahead, later, unlimited]
    · by_cases empty : p.level = 0 <;> simp [Ahead, later, unlimited, empty]
  · by_cases unlimited : p'.capacity.isNone = true
    · simp [Ahead, unlimited, empty]
    · simp [Ahead, later, unlimited, empty]

theorem Ahead.ready (h : q.Ahead offset q') : q'.ready = q.ready := by
  rcases h with rfl | ⟨rfl, _⟩ <;> rfl

theorem Ahead.idle (h : q.Ahead offset q') : q'.idle = q.idle := by
  rcases h with rfl | ⟨rfl, _⟩ <;> rfl

/-- What has left the queue once has left it. -/
theorem shiftOut_idem (q : TransmitQueue) (now : Micros) (level : Nat) :
    (q.shiftOut now level).sync now = q.shiftOut now level := by
  induction level generalizing q with
  | zero => rfl
  | succ level ih =>
      rw [shiftOut]
      split
      · exact ih _
      · rename_i early
        rw [TransmitQueue.sync, shiftOut, if_neg early]

theorem sync_sync (q : TransmitQueue) (now : Micros) : (q.sync now).sync now = q.sync now :=
  shiftOut_idem q now q.level

end TransmitQueue

namespace Bench

/-- The bench of a clock that is ahead, with queues of its own. -/
def later (offset : Micros) (received : List Received) (queue : TransmitQueue) (b : Bench) :
    Bench :=
  { b with
    clock := b.clock + offset
    received
    transmitQueue := queue
    transmitAlarm := b.transmitAlarm.map (· + offset)
    receiveAlarm := b.receiveAlarm.map (· + offset) }

/-- Benches that a link cannot tell apart but by their clocks, if it listens or if it does not. -/
inductive Alike (offset : Micros) (deaf listening : Bool) (b : Bench) : Bench → Prop where
  | later {received : List Received} {queue : TransmitQueue}
      (queued : b.transmitQueue.Ahead offset queue)
      (heard : listening = true ∨ deaf = false → received = b.received)
      (waits : deaf = true → b.delivers = false) :
      Alike offset deaf listening b (b.later offset received queue)

theorem take_eq (b : Bench) : Hardware.take b =
    ((b.received.head?.map Received.byte).getD 0, { b with received := b.received.tail }) := by
  obtain ⟨_, _, _, received, _⟩ := b
  cases received <;> rfl

/-- A link that does not listen takes what the line status calls a byte or a break. -/
theorem discard_step (limit : Nat) (b : Bench) : Hardware.discard (limit + 1) b =
    if (Line.Status.ofBits b.sync.statusBits).breakDetected ∨
        (Line.Status.ofBits b.sync.statusBits).dataReady then
      Hardware.discard limit { b.sync with received := b.received.tail }
    else b.sync := by
  change (if _ then Hardware.discard limit (Hardware.take b.sync).2 else b.sync) = _
  rw [take_eq]
  rfl

/-- What a link that does not listen leaves is told by what is left in the receive queue. -/
theorem discard_eq (limit : Nat) (b : Bench) :
    ∃ received, Hardware.discard (limit + 1) b = { b.sync with received } := by
  induction limit generalizing b with
  | zero =>
      rw [discard_step]
      split
      · exact ⟨_, rfl⟩
      · exact ⟨b.received, rfl⟩
  | succ limit ih =>
      rw [discard_step]
      split
      · obtain ⟨received, left⟩ := ih { b.sync with received := b.received.tail }
        refine ⟨received, left.trans ?_⟩
        change { b with received, transmitQueue := (b.transmitQueue.sync b.clock).sync b.clock } = _
        rw [TransmitQueue.sync_sync]
        rfl
      · exact ⟨b.received, rfl⟩

/-- Beside the received bits the status register shows how far the transmit queue is. -/
theorem statusBits_and_queue (b : Bench) {mask : UInt32} (high : 0x1F &&& mask = 0) :
    b.statusBits &&& mask = ((if b.transmitQueue.ready then 0x20 else 0) &&& mask) |||
      ((if b.transmitQueue.idle then 0x40 else 0) &&& mask) := by
  have nothing : b.receiveBits &&& mask = 0 := by
    rw [receiveBits]
    cases b.received with
    | nil => exact UInt32.zero_and
    | cons entry => rw [UInt32.and_assoc, high, UInt32.and_zero]
  rw [statusBits, or_and_distrib, or_and_distrib, nothing, UInt32.zero_or]

variable {offset : Micros} {deaf listening : Bool} {b b' : Bench}

namespace Alike

theorem of_eq {t t' : Bench} {received : List Received} {queue : TransmitQueue}
    (same : t' = t.later offset received queue) (queued : t.transmitQueue.Ahead offset queue)
    (heard : listening = true ∨ deaf = false → received = t.received)
    (waits : deaf = true → t.delivers = false) : Alike offset deaf listening t t' :=
  same ▸ .later queued heard waits

/-- Two benches that were never used. -/
theorem unused (clock : Micros) :
    Alike offset deaf listening { clock } { clock := clock + offset } :=
  .of_eq rfl (.inr ⟨rfl, rfl⟩) (fun _ => rfl) fun _ => rfl

theorem clock (h : Alike offset deaf listening b b') : b'.clock = b.clock + offset := by
  obtain ⟨⟩ := h
  rfl

theorem deafen (h : Alike offset deaf true b b') : Alike offset deaf listening b b' := by
  obtain ⟨queued, heard, waits⟩ := h
  exact .later queued (fun _ => heard (.inl rfl)) waits

/-- Where both have received the same, they are alike to a link that listens. -/
theorem listen (h : Alike offset deaf listening b b') (same : b'.received = b.received) :
    Alike offset deaf true b b' := by
  obtain ⟨queued, _, waits⟩ := h
  exact .later queued (fun _ => same) waits

theorem received (h : Alike offset deaf listening b b') (hears : listening = true ∨ deaf = false) :
    b'.received = b.received := by
  obtain ⟨_, heard, _⟩ := h
  exact heard hears

theorem sync (h : Alike offset deaf listening b b') :
    Alike offset deaf listening b.sync b'.sync := by
  obtain ⟨queued, heard, waits⟩ := h
  exact .of_eq rfl (queued.sync b.clock) heard waits

theorem queue (h : Alike offset deaf listening b b') :
    b.transmitQueue.Ahead offset b'.transmitQueue := by
  obtain ⟨queued, _, _⟩ := h
  exact queued

/-- What is in the receive queues may change, alike if the link is to hear of it. -/
theorem withReceived (h : Alike offset deaf listening b b') {received received' : List Received}
    (same : listening = true ∨ deaf = false → received' = received) :
    Alike offset deaf listening { b with received } { b' with received := received' } := by
  obtain ⟨queued, _, waits⟩ := h
  exact .of_eq rfl queued same waits

/-- Deaf twins may receive anything while the link does not listen. -/
theorem overhear (h : Alike offset true false b b') (received received' : List Received) :
    Alike offset true false { b with received } { b' with received := received' } :=
  h.withReceived fun hears => by simp at hears

theorem withQueue (h : Alike offset deaf listening b b') {queue queue' : TransmitQueue}
    (queued : queue.Ahead offset queue') :
    Alike offset deaf listening { b with transmitQueue := queue }
      { b' with transmitQueue := queue' } := by
  obtain ⟨_, heard, waits⟩ := h
  exact .of_eq rfl queued heard waits

theorem withClock (h : Alike offset deaf listening b b') (clock : Micros) :
    Alike offset deaf listening { b with clock } { b' with clock := clock + offset } := by
  obtain ⟨queued, heard, waits⟩ := h
  exact .of_eq rfl queued heard waits

theorem setAlarm (h : Alike offset deaf listening b b') (alarm : Alarm)
    (deadline : Option Micros) :
    Alike offset deaf listening (b.setAlarm alarm deadline)
      (b'.setAlarm alarm (deadline.map (· + offset))) := by
  obtain ⟨queued, heard, waits⟩ := h
  cases alarm <;> exact .of_eq rfl queued heard waits

theorem alarmDue (h : Alike offset deaf listening b b') (alarm : Alarm) :
    b'.alarmDue alarm = b.alarmDue alarm := by
  have due (deadline : Option Micros) :
      (deadline.map (· + offset)).any (isDue (b.clock + offset)) =
        deadline.any (isDue b.clock) := by
    cases deadline <;> simp [isDue_add_right]
  obtain ⟨⟩ := h
  cases alarm <;> exact due _

theorem tick (h : Alike offset deaf listening b b') :
    Alike offset deaf listening (Hardware.tick b) (Hardware.tick b') := by
  obtain ⟨queued, heard, waits⟩ := h
  have moved : b.clock + offset + b.step = b.clock + b.step + offset := by grind
  exact .of_eq (congrArg (fun clock => { b.later offset _ _ with clock }) moved) queued heard waits

/-- Both line statuses tell how far the transmit queue is. -/
theorem statusBits (h : Alike offset deaf true b b') : b'.statusBits = b.statusBits := by
  rw [Bench.statusBits, Bench.statusBits, receiveBits, receiveBits, h.received (.inl rfl),
    h.queue.ready, h.queue.idle]

/-- Whether the link listens or not, it is told how far the transmit queue is. -/
theorem statusBits_queue (h : Alike offset deaf listening b b') {mask : UInt32}
    (high : 0x1F &&& mask = 0) : b'.statusBits &&& mask = b.statusBits &&& mask := by
  rw [statusBits_and_queue _ high, statusBits_and_queue _ high, h.queue.ready, h.queue.idle]

theorem take (h : Alike offset deaf true b b') : (Hardware.take b').1 = (Hardware.take b).1 ∧
    Alike offset deaf true (Hardware.take b).2 (Hardware.take b').2 := by
  rw [take_eq, take_eq, h.received (.inl rfl)]
  exact ⟨rfl, h.withReceived fun _ => rfl⟩

theorem obey (h : Alike offset deaf listening b b') (order : Order) :
    Alike offset deaf listening (b.obey order) (b'.obey (order.later offset)) := by
  cases order with
  | setBreak => exact h
  | allowReceive enabled | allowTransmit enabled =>
      obtain ⟨queued, heard, waits⟩ := h
      exact .of_eq rfl queued heard waits
  | clearReceive => exact h.withReceived fun _ => rfl
  | write =>
      have put := h.queue.put b.clock
      rw [← h.clock] at put
      exact h.withQueue put
  | setAlarm alarm deadline => exact h.setAlarm alarm (some deadline)
  | cancelAlarm alarm => exact h.setAlarm alarm none

theorem drive (h : Alike offset deaf listening b b') (high : Bool) :
    (Hardware.drive high b').1 = (Hardware.drive high b).1 ∧
      Alike offset deaf listening (Hardware.drive high b).2 (Hardware.drive high b').2 := by
  obtain ⟨queued, heard, waits⟩ := h
  obtain ⟨_, _, _, _, _, failures, _⟩ := b
  cases failures <;> exact ⟨rfl, .of_eq rfl queued heard waits⟩

/-- Deaf twins look at no interrupts, and others at the same. -/
theorem polled (h : Alike offset deaf listening b b') : Hardware.polled b' = Hardware.polled b ∧
    ∀ interrupt ∈ Hardware.polled b, deaf = false := by
  obtain ⟨_, _, waits⟩ := h
  refine ⟨rfl, fun interrupt mem => ?_⟩
  refine Bool.eq_false_iff.mpr fun isDeaf => ?_
  have none : Hardware.polled b = [] := by
    change (if b.delivers then _ else _) = _
    rw [waits isDeaf]
    rfl
  rw [none] at mem
  cases mem

theorem discard (h : Alike offset deaf listening b b') (limit : Nat) :
    Alike offset deaf listening (Hardware.discard limit b) (Hardware.discard limit b') := by
  -- Twins that have received the same take the same; otherwise they differ in what is left.
  by_cases hears : listening = true ∨ deaf = false
  · have all : Alike offset deaf true b b' := h.listen (h.received hears)
    have left : Alike offset deaf true (Hardware.discard limit b) (Hardware.discard limit b') := by
      clear h
      induction limit generalizing b b' with
      | zero => exact all
      | succ limit ih =>
          rw [discard_step, discard_step, all.sync.statusBits, all.received (.inl rfl)]
          split
          · exact ih (all.sync.withReceived fun _ => rfl)
          · exact all.sync
    exact left.deafen
  · cases limit with
    | zero => exact h
    | succ limit =>
        obtain ⟨received, left⟩ := discard_eq limit b
        obtain ⟨received', left'⟩ := discard_eq limit b'
        rw [left, left']
        exact h.sync.withReceived fun hears' => absurd hears' hears

/-- Where both have received the same, an interrupt is raised at both or at neither. -/
theorem raised (h : Alike offset deaf listening b b') (hears : deaf = false)
    (interrupt : Interrupt) : (b'.raised interrupt).1 = (b.raised interrupt).1 ∧
      Alike offset deaf listening (b.raised interrupt).2 (b'.raised interrupt).2 := by
  cases interrupt with
  | uart =>
      have synced := h.sync
      refine ⟨?_, synced⟩
      have masks : (b'.sync.receiveAllowed, b'.sync.transmitAllowed) =
          (b.sync.receiveAllowed, b.sync.transmitAllowed) := by
        obtain ⟨⟩ := h
        rfl
      obtain ⟨receive, transmit⟩ := Prod.mk.inj masks
      simp only [Bench.raised]
      rw [receive, transmit, synced.received (.inr hears), synced.queue.ready]
  | transmitTimer => exact ⟨h.alarmDue .transmit, h⟩
  | receiveTimeout => exact ⟨h.alarmDue .receiveTimeout, h⟩

-- What changes benches from outside leaves twins as they are, if the clock of the second one is
-- set ahead.

theorem setClock (h : Alike offset deaf listening b b') (clock : Micros) :
    Alike offset deaf listening (b.setClock clock) (b'.setClock (clock + offset)) :=
  h.withClock clock

theorem setStep (h : Alike offset deaf listening b b') (step : Micros) :
    Alike offset deaf listening (b.setStep step) (b'.setStep step) := by
  obtain ⟨queued, heard, waits⟩ := h
  exact .of_eq rfl queued heard waits

theorem receive (h : Alike offset deaf listening b b') (bytes : List UInt8) (status : UInt32) :
    Alike offset deaf listening (b.receive bytes status) (b'.receive bytes status) :=
  h.withReceived fun hears => by rw [h.received hears]

theorem receiveBreak (h : Alike offset deaf listening b b') :
    Alike offset deaf listening b.receiveBreak b'.receiveBreak :=
  h.withReceived fun hears => by rw [h.received hears]

end Alike

def twins (offset : Micros) (deaf : Bool) : Twins Bench where
  offset
  alike := Alike offset deaf
  served _ := deaf = false
  deafens := Alike.deafen
  clocks := Alike.clock
  ticks := Alike.tick
  shows h := ⟨congrArg Line.Status.ofBits h.sync.statusBits, h.sync⟩
  takes := Alike.take
  tells h :=
    have queue {mask : UInt32} (high : 0x1F &&& mask = 0) :=
      congrArg (· != 0) (h.sync.statusBits_queue high)
    ⟨queue (by decide), queue (by decide), h.sync⟩
  discards limit h := h.discard limit
  obeys order h := h.obey order
  obeys_silently _ h := h.obey _
  clears h := (h.obey .clearReceive).listen rfl
  drives high h := h.drive high
  polls := Alike.polled
  raises served h := h.raised served _

end Bench

end Dmx512
