/-!
# Faults and checked arithmetic

A computation of the library either answers or stops with a `Fault`: a sum that
leaves its word, an access outside a buffer, a division by zero, a second
exclusive use of a guarded value, or a wait that never ends. Checked operations
name the fault at the place where it would arise, so that "this never happens"
is a statement about values and not a convention.
-/

namespace Dmx512

/-- Why a computation stops without an answer. -/
inductive Fault where
  /-- A result does not fit its word, or a difference is negative. -/
  | overflow
  | outOfBounds
  | divisionByZero
  /-- A guarded value is entered while a use that excludes this one is under way. -/
  | alreadyBorrowed
  /-- A busy-wait outlasts the patience of its clock. -/
  | stalled
  deriving DecidableEq, Repr

/-- A value, or the fault that prevented it. -/
abbrev Checked (α : Type) := Except Fault α

/-- A computation on a state `σ` that may stop with a fault. -/
abbrev Act (σ α : Type) := StateT σ (Except Fault) α

namespace Checked

/-- The 32-bit word that holds `n`, if one does. -/
def word (n : Nat) : Checked UInt32 :=
  if n < 0x100000000 then .ok (UInt32.ofNat n) else .error .overflow

def sub (m n : Nat) : Checked Nat :=
  if n ≤ m then .ok (m - n) else .error .overflow

def subWord (m n : UInt32) : Checked UInt32 :=
  if n ≤ m then .ok (m - n) else .error .overflow

def div (m n : UInt32) : Checked UInt32 :=
  if n = 0 then .error .divisionByZero else .ok (m / n)

/-- The product of two long words, if a long word holds it. -/
def mulLong (m n : UInt64) : Checked UInt64 :=
  if m.toNat * n.toNat < 0x10000000000000000 then .ok (m * n) else .error .overflow

def divLong (m n : UInt64) : Checked UInt64 :=
  if n = 0 then .error .divisionByZero else .ok (m / n)

theorem word_of_lt {n : Nat} (h : n < 0x100000000) : word n = .ok (UInt32.ofNat n) := by
  simp only [word, h, if_true]

theorem sub_of_le {m n : Nat} (h : n ≤ m) : sub m n = .ok (m - n) := by
  simp only [sub, h, if_true]

theorem subWord_of_le {m n : UInt32} (h : n ≤ m) : subWord m n = .ok (m - n) := by
  simp only [subWord, h, if_true]

theorem div_of_ne_zero {m n : UInt32} (h : n ≠ 0) : div m n = .ok (m / n) := by
  simp only [div, h, if_false]

theorem mulLong_of_lt {m n : UInt64} (h : m.toNat * n.toNat < 0x10000000000000000) :
    mulLong m n = .ok (m * n) := by
  simp only [mulLong, h, if_true]

theorem divLong_of_ne_zero {m n : UInt64} (h : n ≠ 0) : divLong m n = .ok (m / n) := by
  simp only [divLong, h, if_false]

@[simp] theorem ok_bind {α β : Type} (a : α) (next : α → Checked β) :
    (Except.ok a : Checked α) >>= next = next a := rfl

/-- What is done with an answer ends where the answer was there. -/
theorem bind_ok {α β : Type} {first : Checked α} {next : α → Checked β} {b : β}
    (h : first >>= next = .ok b) : ∃ a, first = .ok a ∧ next a = .ok b := by
  cases first with
  | error fault => cases h
  | ok a => exact ⟨a, rfl, h⟩

/-- What is made of an answer was made of one that was there. -/
theorem map_ok {α β : Type} {first : Checked α} {f : α → β} {b : β}
    (h : first.map f = .ok b) : ∃ a, first = .ok a ∧ f a = b := by
  cases first with
  | error fault => cases h
  | ok a => exact ⟨a, rfl, Except.ok.inj h⟩

end Checked

def Act.onlyIf {σ : Type} (condition : Bool) (act : Act σ Unit) : Act σ Unit :=
  if condition then act else pure ()

@[simp] theorem Act.onlyIf_true {σ : Type} (act : Act σ Unit) : Act.onlyIf true act = act := rfl

@[simp] theorem Act.onlyIf_false {σ : Type} (act : Act σ Unit) :
    Act.onlyIf false act = pure () := rfl

end Dmx512
