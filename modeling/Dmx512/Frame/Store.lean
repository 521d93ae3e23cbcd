import Dmx512.Frame

/-!
# Stores of received frames

A store keeps the newest frames until they are read. It is a ring of `2 ^ k`
slots with two free-running 64-bit counters: `published` counts the frames ever
written, `consumed` the frames ever read or skipped. Their wrapped difference
is the number of unread frames; where it exceeds the depth, the reader was
lapped and the frames before the newest `2 ^ k` are gone. The reader repairs
that only when it takes a frame.

`unread` is the view of a store: the frames that a reader would take, oldest
first. `peek?`, `pop?` and `clear` say what a reader does to a store as a whole.
A station reads a store step by step, as `Frame.Reader` does, and frames may be
published between any two of these steps.
-/

namespace Dmx512

/-- A store of depth `2 ^ k`. -/
structure Frame.Store (α : Type) (k : Nat) where
  /-- The frames, each in the slot of its sequence number modulo the depth. -/
  slots : Vector α (1 <<< k)
  /-- Frames published, modulo `2 ^ 64`. -/
  published : UInt64
  /-- Frames consumed, modulo `2 ^ 64`. -/
  consumed : UInt64
  deriving Repr

namespace Frame.Store

variable {α : Type} {k : Nat}

/-- The store that never held a frame; its slots hold `filler`. -/
def empty (filler : α) : Store α k where
  slots := Vector.replicate (1 <<< k) filler
  published := 0
  consumed := 0

def slot (k : Nat) (sequence : UInt64) : Fin (1 <<< k) :=
  ⟨sequence.toNat % 1 <<< k, Nat.mod_lt _ (by rw [Nat.one_shiftLeft]; exact Nat.two_pow_pos k)⟩

/-- How many frames were published since the last one consumed. -/
def lag (store : Store α k) : Nat := (store.published - store.consumed).toNat

def count (store : Store α k) : Nat := min store.lag (1 <<< k)

/-- The number of unread frames by a count of published frames that was loaded before. -/
def pending (store : Store α k) (published : UInt64) : Nat := { store with published }.count

/-- Publish a frame, over the oldest one where the store is full. -/
def push (store : Store α k) (frame : α) : Store α k where
  slots := store.slots.set (slot k store.published) frame (slot k store.published).isLt
  published := store.published + 1
  consumed := store.consumed

def pushAll (store : Store α k) (frames : List α) : Store α k := frames.foldl push store

/-- The sequence number of the oldest frame that is still in its slot. -/
def oldest (store : Store α k) : UInt64 :=
  if store.lag > 1 <<< k then store.published - UInt64.ofNat (1 <<< k) else store.consumed

/-- The oldest unread frame, for a reader that nothing comes in between. -/
def peek? (store : Store α k) : Option α :=
  if store.lag = 0 then none else some (store.slots.get (slot k store.oldest))

/-- Take the oldest unread frame, if nothing comes in between. -/
def pop? (store : Store α k) : Option (α × Store α k) :=
  store.peek?.map fun frame => (frame, { store with consumed := store.oldest + 1 })

def clear (store : Store α k) : Store α k :=
  { store with consumed := store.published }

/-- The unread frames, oldest first. -/
def unread (store : Store α k) : List α :=
  (List.range store.count).map fun i =>
    store.slots.get (slot k (store.oldest + UInt64.ofNat i))

@[simp] theorem length_unread (store : Store α k) : store.unread.length = store.count := by
  simp [unread]

@[simp] theorem lag_clear (store : Store α k) : store.clear.lag = 0 := by
  simp [clear, lag]

end Frame.Store

end Dmx512
