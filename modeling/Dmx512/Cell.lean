import Dmx512.Fault

/-!
# Guarded values

A value that interrupts and the foreground share is kept in a cell that notes
how it is in use: by one use that may change it, or by any number of uses that
only look. A use that the present ones exclude is a fault, unless it is a mere
attempt. Uses nest; `Access` is the language of nested uses of one word.
-/

namespace Dmx512

/-- A value and the uses of it that are under way. -/
structure Cell (α : Type) where
  value : α
  /-- How many uses look at the value. -/
  readers : Nat := 0
  /-- Whether a use may change the value. -/
  exclusive : Bool := false
  deriving DecidableEq, Repr

namespace Cell

variable {α : Type}

def isFree (cell : Cell α) : Bool := cell.readers == 0 && !cell.exclusive

/-- Begin a use that may change the value: there must be no other use. -/
def enter (cell : Cell α) : Checked (Cell α) :=
  if cell.isFree then .ok { cell with exclusive := true } else .error .alreadyBorrowed

def leave (cell : Cell α) : Cell α := { cell with exclusive := false }

/-- Begin a use that looks at the value: no use may be changing it. -/
def share (cell : Cell α) : Checked (Cell α) :=
  if cell.exclusive then .error .alreadyBorrowed
  else .ok { cell with readers := cell.readers + 1 }

def unshare (cell : Cell α) : Cell α := { cell with readers := cell.readers - 1 }

end Cell

/-- A use of a guarded word, with the uses made during it. -/
inductive Access where
  /-- Add to the word; nothing else may use it meanwhile. -/
  | exclusive (increment : UInt32) (body : List Access)
  /-- As `exclusive`, but passed over where the word is in use. -/
  | attempt (increment : UInt32) (body : List Access)
  /-- Look at the word; nothing may change it meanwhile. -/
  | shared (body : List Access)

namespace Access

mutual

/-- Carry out a use. The list holds the word each use ended with, inner uses
before outer ones; `none` stands for an attempt passed over. -/
def run : Access → Act (Cell UInt32) (List (Option UInt32))
  | .exclusive increment body => do
    set (← (← get).enter : Cell UInt32)
    modify fun cell => { cell with value := cell.value + increment }
    let log ← runAll body
    let value := (← get).value
    modify Cell.leave
    pure (log ++ [some value])
  | .attempt increment body => do
    if (← get).isFree then
      modify fun cell => { cell with value := cell.value + increment, exclusive := true }
      let log ← runAll body
      let value := (← get).value
      modify Cell.leave
      pure (log ++ [some value])
    else
      pure [none]
  | .shared body => do
    set (← (← get).share : Cell UInt32)
    let log ← runAll body
    let value := (← get).value
    modify Cell.unshare
    pure (log ++ [some value])

def runAll : List Access → Act (Cell UInt32) (List (Option UInt32))
  | [] => pure []
  | access :: rest => do
    let log ← run access
    pure (log ++ (← runAll rest))

end

end Access

end Dmx512
