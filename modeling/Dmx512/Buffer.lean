import Dmx512.Fault

/-!
# Byte buffers of fixed capacity

A frame under construction lives in a buffer that is written byte by byte and
reused for the next frame, so bytes behind the written part are left over from
earlier frames. `put` and `front` are checked against the capacity; their laws
describe both through the list of bytes before a position.
-/

namespace Dmx512

abbrev Buffer (n : Nat) := Vector UInt8 n

namespace Buffer

def zeros (n : Nat) : Buffer n := Vector.replicate n 0

def put {n : Nat} (buffer : Buffer n) (i : Nat) (byte : UInt8) : Checked (Buffer n) :=
  if h : i < n then .ok (buffer.set i byte h) else .error .outOfBounds

def front {n : Nat} (buffer : Buffer n) (count : Nat) : Checked (List UInt8) :=
  if count ≤ n then .ok (buffer.toList.take count) else .error .outOfBounds

theorem put_of_lt {n : Nat} (buffer : Buffer n) {i : Nat} (byte : UInt8) (h : i < n) :
    buffer.put i byte = .ok (buffer.set i byte h) := by
  simp only [put, h, dite_true]

theorem front_of_le {n : Nat} (buffer : Buffer n) {count : Nat} (h : count ≤ n) :
    buffer.front count = .ok (buffer.toList.take count) := by
  simp only [front, h, if_true]

end Buffer

end Dmx512
