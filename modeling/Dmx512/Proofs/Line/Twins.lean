import Dmx512.Line.Hardware
import Dmx512.Proofs.Link.Spacing

/-!
# Twin hardware

Twins are two states of the same hardware that a link cannot tell apart but by the clock, which
is ahead in the second one by an offset. How alike they are depends on whether the link listens.
To a link that does, they show the same in every respect. To one that does not, they may differ in
what was received: a status tells both how far the transmit queue is, and nothing else is asked of
it; and what is written may come back to the one and not to the other.

Of the journals of twins one is ahead as well: it tells the same, later by the offset, with the
deadlines of alarms moved by it. Looks at the line status leave no trace on the hardware and are
left out of the comparison.
-/

namespace Dmx512

/-- The order that a clock ahead by an offset calls for. -/
def Order.later (offset : Micros) : Order → Order
  | .setAlarm alarm deadline => .setAlarm alarm (deadline + offset)
  | order => order

def Event.later (offset : Micros) : Event → Event
  | .order given => .order (given.later offset)
  | event => event

def Entry.later (offset : Micros) (entry : Entry) : Entry :=
  ⟨entry.time + offset, entry.event.later offset⟩

@[simp] theorem Entry.later_zero (entry : Entry) : entry.later 0 = entry := by
  obtain ⟨time, event⟩ := entry
  cases event with
  | order given => cases given <;> simp [Entry.later, Event.later, Order.later]
  | pin | clockRead | sampled | heard | published | queued | turned | transmitAlarm
  | receiveAlarm => simp [Entry.later, Event.later]

def Event.isLook : Event → Bool
  | .sampled _ => true
  | _ => false

namespace Journal

/-- The journal without the looks at the line status. -/
def deeds (journal : Journal) : Journal := journal.filter fun entry => !entry.event.isLook

/-- The journal `j'` tells what `j` tells, as of a clock that is ahead. -/
def Ahead (offset : Micros) (j j' : Journal) : Prop :=
  j'.deeds = j.deeds.map (Entry.later offset)

/-- By how much the end of the latest RDM frame is ahead: by the offset, once there was one. -/
def dating (offset : Micros) (journal : Journal) : Micros :=
  if journal.rdmEnd?.isSome then offset else 0

variable {offset : Micros} {j j' : Journal}

theorem Ahead.cons (h : j.Ahead offset j') (time : Micros) (event : Event)
    (deed : event.isLook = false) :
    Ahead offset (⟨time, event⟩ :: j) (⟨time + offset, event.later offset⟩ :: j') := by
  have deed' : (event.later offset).isLook = false := by
    cases event <;> exact deed
  have first : deeds (⟨time, event⟩ :: j) = ⟨time, event⟩ :: deeds j := by
    simp [deeds, deed]
  have second : deeds (⟨time + offset, event.later offset⟩ :: j') =
      ⟨time + offset, event.later offset⟩ :: deeds j' := by
    simp [deeds, deed']
  rw [Ahead, first, second, h]
  rfl

theorem Ahead.look (h : j.Ahead offset j') (time time' : Micros) (status status' : Line.Status) :
    Ahead offset (⟨time, .sampled status⟩ :: j) (⟨time', .sampled status'⟩ :: j') := h

/-- Journals of which none is ahead tell of the same deeds. -/
theorem Ahead.deeds_eq (h : j.Ahead 0 j') : j'.deeds = j.deeds := by
  have same : Entry.later 0 = id := funext Entry.later_zero
  rw [h, same, List.map_id]

@[simp] theorem dating_zero (journal : Journal) : dating 0 journal = 0 := ite_self 0

-- What a journal tells of frames and alarms, its deeds tell.

theorem publications_deeds (j : Journal) : publications j.deeds = publications j := by
  induction j with
  | nil => rfl
  | cons entry earlier ih =>
      obtain ⟨time, event⟩ := entry
      cases event with
      | published frame => exact congrArg (· ++ [frame]) ih
      | order | pin | clockRead | sampled | heard | queued | turned | transmitAlarm
      | receiveAlarm => exact ih

theorem alarm?_deeds (alarm : Alarm) (j : Journal) : alarm? alarm j.deeds = alarm? alarm j := by
  induction j with
  | nil => rfl
  | cons entry earlier ih =>
      obtain ⟨time, event⟩ := entry
      cases event with
      | order given =>
          cases given with
          | setAlarm other deadline =>
              exact congrArg (fun rest => if other = alarm then some deadline else rest) ih
          | cancelAlarm other =>
              exact congrArg (fun rest => if other = alarm then none else rest) ih
          | setBreak | allowReceive | allowTransmit | clearReceive | write => exact ih
      | published | pin | clockRead | sampled | heard | queued | turned | transmitAlarm
      | receiveAlarm => exact ih

theorem publications_later (offset : Micros) (j : Journal) :
    publications (j.map (Entry.later offset)) = publications j := by
  induction j with
  | nil => rfl
  | cons entry earlier ih =>
      obtain ⟨time, event⟩ := entry
      cases event with
      | published frame => exact congrArg (· ++ [frame]) ih
      | order | pin | clockRead | sampled | heard | queued | turned | transmitAlarm
      | receiveAlarm => exact ih

theorem alarm?_later (offset : Micros) (alarm : Alarm) (j : Journal) :
    alarm? alarm (j.map (Entry.later offset)) = (alarm? alarm j).map (· + offset) := by
  induction j with
  | nil => rfl
  | cons entry earlier ih =>
      obtain ⟨time, event⟩ := entry
      cases event with
      | order given =>
          cases given with
          | setAlarm other deadline | cancelAlarm other =>
              by_cases same : other = alarm
              · simp [Entry.later, Event.later, Order.later, alarm?, same]
              · simpa [Entry.later, Event.later, Order.later, alarm?, same] using ih
          | setBreak | allowReceive | allowTransmit | clearReceive | write => exact ih
      | published | pin | clockRead | sampled | heard | queued | turned | transmitAlarm
      | receiveAlarm => exact ih

/-- A journal that is ahead tells of the same frames. -/
theorem Ahead.publications (h : j.Ahead offset j') : j'.publications = j.publications := by
  rw [← publications_deeds, h, publications_later, publications_deeds]

/-- The deadlines of the alarms are ahead. -/
theorem Ahead.alarm? (h : j.Ahead offset j') (alarm : Alarm) :
    j'.alarm? alarm = (j.alarm? alarm).map (· + offset) := by
  rw [← alarm?_deeds, h, alarm?_later, alarm?_deeds]

end Journal

/-- Whether an order puts something on the line, which the receive queue may hear. -/
def Order.sends : Order → Bool
  | .setBreak _ | .write _ => true
  | _ => false

/-- What a link that does not listen makes of its receive queue: it looks at the line status and
takes the bytes that wait, up to a limit. -/
def Hardware.discard {H : Type} [Hardware H] : Nat → H → H
  | 0, h => h
  | limit + 1, h =>
    let (status, looked) := Hardware.sample h
    if status.breakDetected ∨ status.dataReady then
      discard limit (Hardware.take looked).2
    else
      looked

/-- Which states of hardware are twins, to a link that listens and to one that does not. -/
structure Twins (H : Type) [Hardware H] where
  /-- By how much the clock of the second is ahead. -/
  offset : Micros
  /-- Twins to a link that listens, or to one that does not. -/
  alike (listening : Bool) : H → H → Prop
  /-- The interrupts that the foreground may find raised where it waits. -/
  served : Interrupt → Prop
  deafens {h h' : H} : alike true h h' → alike false h h'
  clocks {h h' : H} : alike false h h' → Hardware.clock h' = Hardware.clock h + offset
  ticks {listening : Bool} {h h' : H} :
    alike listening h h' → alike listening (Hardware.tick h) (Hardware.tick h')
  shows {h h' : H} : alike true h h' → (Hardware.sample h').1 = (Hardware.sample h).1 ∧
    alike true (Hardware.sample h).2 (Hardware.sample h').2
  takes {h h' : H} : alike true h h' → (Hardware.take h').1 = (Hardware.take h).1 ∧
    alike true (Hardware.take h).2 (Hardware.take h').2
  /-- A link that does not listen is told how far its transmit queue is. -/
  tells {h h' : H} : alike false h h' →
    (Hardware.sample h').1.txReady = (Hardware.sample h).1.txReady ∧
    (Hardware.sample h').1.txIdle = (Hardware.sample h).1.txIdle ∧
    alike false (Hardware.sample h).2 (Hardware.sample h').2
  discards {h h' : H} (limit : Nat) :
    alike false h h' → alike false (Hardware.discard limit h) (Hardware.discard limit h')
  obeys {h h' : H} (order : Order) : alike false h h' →
    alike false (Hardware.obey order h) (Hardware.obey (order.later offset) h')
  /-- What puts nothing on the line leaves what was received as it was. -/
  obeys_silently {h h' : H} {order : Order} : order.sends = false → alike true h h' →
    alike true (Hardware.obey order h) (Hardware.obey (order.later offset) h')
  /-- Nothing is left in the receive queue when a link begins to listen. -/
  clears {h h' : H} : alike false h h' →
    alike true (Hardware.obey .clearReceive h) (Hardware.obey .clearReceive h')
  drives {h h' : H} (high : Bool) : alike false h h' →
    (Hardware.drive high h').1 = (Hardware.drive high h).1 ∧
    alike false (Hardware.drive high h).2 (Hardware.drive high h').2
  polls {h h' : H} : alike false h h' →
    Hardware.polled h' = Hardware.polled h ∧ ∀ interrupt ∈ Hardware.polled h, served interrupt
  raises {listening : Bool} {h h' : H} {interrupt : Interrupt} : served interrupt →
    alike listening h h' →
    (Hardware.raised interrupt h').1 = (Hardware.raised interrupt h).1 ∧
    alike listening (Hardware.raised interrupt h).2 (Hardware.raised interrupt h').2

namespace Twins

variable {H : Type} [Hardware H] {twins : Twins H} {listening : Bool} {h h' : H}

theorem alike_false (alike : twins.alike listening h h') : twins.alike false h h' := by
  cases listening with
  | true => exact twins.deafens alike
  | false => exact alike

/-- Whether it listens or not, a link is told how far its transmit queue is. -/
theorem tells_queue (alike : twins.alike listening h h') :
    (Hardware.sample h').1.txReady = (Hardware.sample h).1.txReady ∧
      (Hardware.sample h').1.txIdle = (Hardware.sample h).1.txIdle ∧
      twins.alike listening (Hardware.sample h).2 (Hardware.sample h').2 := by
  cases listening with
  | false => exact twins.tells alike
  | true =>
      obtain ⟨status, left⟩ := twins.shows alike
      exact ⟨congrArg Line.Status.txReady status, congrArg Line.Status.txIdle status, left⟩

/-- What puts nothing on the line leaves twins as alike as they were, and so does anything to a
link that does not listen. -/
theorem obeys_order (alike : twins.alike listening h h') {order : Order}
    (silent : listening = true → order.sends = false) :
    twins.alike listening (Hardware.obey order h)
      (Hardware.obey (order.later twins.offset) h') := by
  cases listening with
  | true => exact twins.obeys_silently (silent rfl) alike
  | false => exact twins.obeys order alike

end Twins

end Dmx512
