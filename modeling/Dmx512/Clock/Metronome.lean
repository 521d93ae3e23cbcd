import Dmx512.Clock.Wait

/-!
# A clock of constant step

A metronome advances by the same step at every reading and counts its readings.
Beside it stands a countdown: a condition that holds for a given number of
polls and counts them.
-/

namespace Dmx512

/-- A clock that moves by `step` whenever it is read. -/
structure Metronome where
  /-- What the next reading returns. -/
  clock : Micros
  step : Micros
  reads : Nat := 0
  /-- For how many more polls the condition holds. -/
  budget : Nat := 0
  polls : Nat := 0
  deriving DecidableEq, Repr

namespace Metronome

def read : Act Metronome Micros := fun m =>
  pure (m.clock, { m with clock := m.clock + m.step, reads := m.reads + 1 })

def busy : Act Metronome Bool := fun m =>
  pure (decide (0 < m.budget), { m with budget := m.budget - 1, polls := m.polls + 1 })

/-- After so many readings a metronome that moves has met every deadline. -/
def patience : Nat := 0x100000000 + 1

def waitUntil (deadline : Micros) : Act Metronome Unit :=
  Wait.untilDue read deadline patience

def waitFor (micros : Micros) : Act Metronome Unit :=
  Wait.forMicros read micros patience

def waitWhile (timeout : Micros) : Act Metronome Bool :=
  Wait.whileBusy read busy timeout patience

end Metronome

end Dmx512
