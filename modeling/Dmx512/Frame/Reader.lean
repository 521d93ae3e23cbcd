import Dmx512.Frame.Store

/-!
# Readers of a store

Frames are published while a store is read, wherever its reader stands. So a reader loads the count
of published frames, copies the oldest frame part by part, and loads the count again. Where the
store has come round to the slot of that frame by then, parts of another one may be in the copy; it
is given up, and the reader starts anew. The count of consumed frames is stored by the reader alone,
and the buffer that it copies into is its own.

`seen` and `unseen` keep apart the frames that were published until the reader loaded their count
last, and those since. No step depends on them.
-/

namespace Dmx512.Frame

/-- How a frame gets into a buffer part by part, whatever the buffer held before. -/
structure Copier (α : Type) where
  parts : Nat
  copy : Nat → α → α → α
  whole : ∀ frame buffer : α,
    (List.range parts).foldl (fun buffer part => copy part frame buffer) buffer = frame

def Copier.atOnce {α : Type} : Copier α where
  parts := 1
  copy _ frame _ := frame
  whole _ _ := rfl

inductive Task where
  | take
  | look
  | flush
  deriving DecidableEq, Repr

/-- Where a reader stands: what it is to do next, and what it has loaded for that. -/
inductive Stand where
  | loading
  | measuring (published : UInt64)
  | copying (sequence : UInt64) (part : Nat)
  | checking (sequence : UInt64)
  | storing (consumed : UInt64)
  | done (found : Bool)
  deriving DecidableEq, Repr

/-- A store, and the buffer that its frames are copied into. -/
structure Desk (α : Type) (k : Nat) where
  store : Store α k
  buffer : α

structure Reader (α : Type) where
  stand : Stand := .loading
  seen : List α := []
  unseen : List α := []
  deriving Repr

variable {α : Type} {k : Nat}

namespace Stand

def loads : Stand → Bool
  | .loading | .checking _ => true
  | .measuring _ | .copying _ _ | .storing _ | .done _ => false

/-- Go on with the count of published frames loaded. -/
def begin (published : UInt64) : Task → Stand
  | .take | .look => .measuring published
  | .flush => .storing published

def settle (sequence : UInt64) : Task → Stand
  | .take => .storing (sequence + 1)
  | .look | .flush => .done true

/-- Take one step: one access to the store, or one part of a copy. -/
def next (copier : Copier α) (task : Task) (desk : Desk α k) : Stand → Stand × Desk α k
  | .loading => (begin desk.store.published task, desk)
  | .measuring published =>
    let store := { desk.store with published }
    if store.lag = 0 then
      (.done false, desk)
    else
      (.copying store.oldest 0, desk)
  | .copying sequence part =>
    if part < copier.parts then
      let frame := desk.store.slots.get (Store.slot k sequence)
      (.copying sequence (part + 1), { desk with buffer := copier.copy part frame desk.buffer })
    else
      (.checking sequence, desk)
  | .checking sequence =>
    -- More frames than there are slots: the slot was written since the count was loaded.
    if (desk.store.published - sequence).toNat > 1 <<< k then
      (.loading, desk)
    else
      (settle sequence task, desk)
  | .storing consumed =>
    (.done (task == .take), { desk with store := { desk.store with consumed } })
  | .done found => (.done found, desk)

end Stand

namespace Reader

def step (copier : Copier α) (task : Task) (reader : Reader α) (desk : Desk α k) :
    Reader α × Desk α k :=
  let loads := reader.stand.loads
  let (stand, desk) := reader.stand.next copier task desk
  ({ stand
     seen := if loads then reader.seen ++ reader.unseen else reader.seen
     unseen := if loads then [] else reader.unseen }, desk)

def steps (copier : Copier α) (task : Task) :
    Nat → Reader α → Desk α k → Reader α × Desk α k
  | 0, reader, desk => (reader, desk)
  | count + 1, reader, desk =>
    let (reader, desk) := reader.step copier task desk
    steps copier task count reader desk

def notice (reader : Reader α) (frames : List α) : Reader α :=
  { reader with unseen := reader.unseen ++ frames }

def answer (reader : Reader α) (desk : Desk α k) : Option α :=
  match reader.stand with
  | .done true => some desk.buffer
  | _ => none

end Reader

/-- As many steps as a reader takes at most while nothing is published: wherever it stands, it gives
up one copy at most. -/
def Copier.patience (copier : Copier α) : Nat := 2 * (copier.parts + 6)

/-- Let a reader go on alone to its end, and answer what it found. -/
def Reader.finish (copier : Copier α) (task : Task) (reader : Reader α) (desk : Desk α k) :
    (Reader α × Option α) × Desk α k :=
  let (reader, desk) := Reader.steps copier task copier.patience reader desk
  ((reader, reader.answer desk), desk)

end Dmx512.Frame
