import Dmx512.Frame.Store
import Mathlib.Algebra.Group.Nat.Defs
import Mathlib.Data.List.DropRight

/-!
# A store is a newest-N queue

The slots are read through `recent`, which counts back from the frame published
last. As long as fewer than `2 ^ 64` frames lie behind the reader, the unread frames
are the most recent ones, and each use of a store makes of them what it makes of a
queue: wherever the two counters stand, and however far the reader was lapped.
-/

namespace Dmx512.Frame.Store

variable {α : Type} {k : Nat} {store : Store α k}

/-- How many frames the two counters can tell apart. -/
abbrev counts : Nat := 0x10000000000000000

/-- The frame published as the `j`-th last. -/
def recent (store : Store α k) (j : Nat) : α :=
  store.slots.get (slot k (store.published - UInt64.ofNat j))

theorem lag_lt (store : Store α k) : store.lag < counts :=
  (store.published - store.consumed).toNat_lt

theorem count_le_lag (store : Store α k) : store.count ≤ store.lag := Nat.min_le_left _ _

theorem count_le (store : Store α k) : store.count ≤ 2 ^ k := by
  rw [count, Nat.one_shiftLeft]
  exact Nat.min_le_right _ _

theorem count_lt (store : Store α k) : store.count < counts :=
  store.count_le_lag.trans_lt store.lag_lt

theorem count_eq (store : Store α k) : store.count = min store.lag (2 ^ k) := by
  rw [count, Nat.one_shiftLeft]

theorem oldest_eq (store : Store α k) :
    store.oldest = store.published - UInt64.ofNat store.count := by
  rw [oldest, count]
  split
  case isTrue lapped => rw [Nat.min_eq_right (Nat.le_of_lt lapped)]
  case isFalse behind =>
    rw [Nat.min_eq_left (Nat.le_of_not_lt behind), lag, UInt64.ofNat_toNat]
    grind

/-- Frames in a row lie in different slots, up to the depth of the store; the counters
may wrap in between. -/
theorem slot_sub_ne (sequence : UInt64) {j : Nat} (pos : 0 < j) (shallow : j < 2 ^ k)
    (few : j < counts) : slot k (sequence - UInt64.ofNat j) ≠ slot k sequence := by
  intro same
  generalize before : sequence - UInt64.ofNat j = earlier at same
  have wraps : (earlier.toNat + j) % counts = sequence.toNat := by
    have back : earlier + UInt64.ofNat j = sequence := by grind
    rw [← back, UInt64.toNat_add, UInt64.toNat_ofNat', Nat.mod_eq_of_lt few]
  have same : earlier.toNat % 2 ^ k = sequence.toNat % 2 ^ k := by
    simpa only [slot, Nat.one_shiftLeft] using congrArg Fin.val same
  by_cases narrow : k ≤ 64
  · have divides : 2 ^ k ∣ counts := Nat.pow_dvd_pow 2 narrow
    rw [← wraps, Nat.mod_mod_of_dvd _ divides] at same
    have apart := Nat.sub_mod_eq_zero_of_mod_eq same.symm
    rw [Nat.add_sub_cancel_left, Nat.mod_eq_of_lt shallow] at apart
    exact Nat.ne_of_gt pos apart
  · have wide : counts ≤ 2 ^ k := Nat.pow_le_pow_right Nat.two_pos (Nat.le_of_not_le narrow)
    rw [Nat.mod_eq_of_lt (earlier.toNat_lt.trans_le wide),
      Nat.mod_eq_of_lt (sequence.toNat_lt.trans_le wide)] at same
    simp only [counts] at few wraps
    omega

theorem sub_ofNat_add (sequence : UInt64) {i n : Nat} (le : i ≤ n) :
    sequence - UInt64.ofNat n + UInt64.ofNat i = sequence - UInt64.ofNat (n - i) := by
  have split : UInt64.ofNat n = UInt64.ofNat (n - i) + UInt64.ofNat i := by
    rw [← UInt64.ofNat_add, Nat.sub_add_cancel le]
  rw [split]
  grind

/-- The unread frames are the most recent ones. -/
theorem unread_eq (store : Store α k) :
    store.unread = (List.range store.count).map fun i => store.recent (store.count - i) := by
  rw [unread, oldest_eq]
  apply List.map_congr_left
  intro i mem
  rw [sub_ofNat_add _ (Nat.le_of_lt (List.mem_range.mp mem)), recent]

theorem getElem_unread {i : Nat} (h : i < store.unread.length) :
    store.unread[i] = store.recent (store.count - i) := by
  simp only [unread_eq, List.getElem_map, List.getElem_range]

section Push

variable (few : store.lag + 1 < counts) (frame : α)
include few

theorem lag_push : (store.push frame).lag = store.lag + 1 := by
  have next : store.published + 1 - store.consumed = store.published - store.consumed + 1 := by
    grind
  rw [lag, push, next, UInt64.toNat_add]
  exact Nat.mod_eq_of_lt few

omit few in
theorem recent_push_one : (store.push frame).recent 1 = frame := by
  have here : store.published + 1 - UInt64.ofNat 1 = store.published := by grind
  simp only [recent, push, here]
  exact Vector.getElem_set_self _

omit few in
/-- A frame that is published takes the place of the one as old as the store is deep. -/
theorem recent_push {j : Nat} (pos : 0 < j) (shallow : j < 2 ^ k) (lt : j < counts) :
    (store.push frame).recent (j + 1) = store.recent j := by
  have here : store.published + 1 - UInt64.ofNat (j + 1) = store.published - UInt64.ofNat j := by
    rw [UInt64.ofNat_add]
    grind
  simp only [recent, push, here]
  refine Vector.getElem_set_ne _ _ fun same => ?_
  exact slot_sub_ne store.published pos shallow lt (Fin.ext same).symm

theorem count_push : (store.push frame).count = min (store.count + 1) (2 ^ k) := by
  rw [count_eq, count_eq, lag_push few]
  omega

/-- A publication appends, and the oldest frame goes where there is no room for it. -/
theorem unread_push : (store.push frame).unread = (store.unread ++ [frame]).rtake (2 ^ k) := by
  have counted := count_push few frame
  have lt := store.count_lt
  have le := store.count_le
  rw [List.rtake]
  apply List.ext_getElem
  · simp only [length_unread, List.length_drop, List.length_append, List.length_singleton]
    omega
  intro i inside inside'
  simp only [length_unread, List.length_drop, List.length_append, List.length_singleton]
    at inside inside'
  simp only [getElem_unread, List.getElem_drop, length_unread, List.length_append,
    List.length_singleton]
  by_cases last : store.count ≤ store.count + 1 - 2 ^ k + i
  · have newest : (store.push frame).count - i = 1 := by omega
    rw [newest, recent_push_one, List.getElem_append_right (by rwa [length_unread])]
    simp
  · have older : (store.push frame).count - i =
        store.count - (store.count + 1 - 2 ^ k + i) + 1 := by omega
    rw [older, recent_push frame (by omega) (by omega) (by omega),
      List.getElem_append_left (by rw [length_unread]; omega), getElem_unread]

omit few in
/-- A publication brings nothing to read but its frame, even where the counters meet. -/
theorem mem_unread_push {other : α} (mem : other ∈ (store.push frame).unread) :
    other ∈ store.unread ∨ other = frame := by
  by_cases few : store.lag + 1 < counts
  · rw [unread_push few, List.rtake] at mem
    simpa using List.mem_of_mem_drop mem
  · have met : (store.push frame).lag = 0 := by
      have next : store.published + 1 - store.consumed = store.published - store.consumed + 1 := by
        grind
      have lt := store.lag_lt
      rw [lag] at few lt
      rw [lag, push, next, UInt64.toNat_add, UInt64.toNat_one]
      simp only [counts] at few lt
      omega
    rw [unread, count, met] at mem
    simp at mem

end Push

section PushAll

variable {frames : List α}

theorem pushAll_append (first second : List α) :
    store.pushAll (first ++ second) = (store.pushAll first).pushAll second :=
  List.foldl_append

/-- Publications leave the count of consumed frames to the reader. -/
theorem consume_pushAll (store : Store α k) (frames : List α) (consumed : UInt64) :
    { store.pushAll frames with consumed } =
      ({ store with consumed } : Store α k).pushAll frames := by
  induction frames generalizing store with
  | nil => rfl
  | cons frame rest ih => exact ih (store.push frame)

theorem consumed_pushAll (store : Store α k) (frames : List α) :
    (store.pushAll frames).consumed = store.consumed := by
  induction frames generalizing store with
  | nil => rfl
  | cons frame rest ih => exact ih (store.push frame)

theorem published_pushAll (store : Store α k) (frames : List α) :
    (store.pushAll frames).published = store.published + UInt64.ofNat frames.length := by
  induction frames generalizing store with
  | nil => exact (UInt64.add_zero _).symm
  | cons frame rest ih =>
      have next : (store.push frame).published = store.published + 1 := rfl
      have split : UInt64.ofNat (frame :: rest).length = 1 + UInt64.ofNat rest.length := by
        rw [List.length_cons, Nat.add_comm, UInt64.ofNat_add]
        rfl
      have later := ih (store.push frame)
      rwa [next, UInt64.add_assoc, ← split] at later

theorem mem_unread_pushAll {frame : α} (mem : frame ∈ (store.pushAll frames).unread) :
    frame ∈ store.unread ∨ frame ∈ frames := by
  induction frames generalizing store with
  | nil => exact .inl mem
  | cons first rest ih =>
      have mem' : frame ∈ ((store.push first).pushAll rest).unread := mem
      rcases ih mem' with pushed | later
      · rcases mem_unread_push first pushed with before | rfl
        · exact .inl before
        · exact .inr List.mem_cons_self
      · exact .inr (List.mem_cons_of_mem _ later)

/-- Cutting a queue to its depth before more is appended loses nothing that stays. -/
theorem rtake_rtake_append (depth : Nat) (older newer : List α) :
    (older.rtake depth ++ newer).rtake depth = (older ++ newer).rtake depth := by
  have front : older.rtake depth ++ newer = (older ++ newer).drop (older.length - depth) := by
    rw [List.rtake, List.drop_append_of_le_length (Nat.sub_le _ _)]
  rw [front, List.rtake, List.rtake, List.drop_drop, List.length_drop, List.length_append]
  congr 1
  omega

theorem rtake_of_length_le {depth : Nat} {queue : List α} (short : queue.length ≤ depth) :
    queue.rtake depth = queue := by
  rw [List.rtake, Nat.sub_eq_zero_of_le short, List.drop_zero]

section Few

variable (few : store.lag + frames.length < counts)
include few

theorem lag_pushAll : (store.pushAll frames).lag = store.lag + frames.length := by
  induction frames generalizing store with
  | nil => rfl
  | cons frame rest ih =>
      rw [List.length_cons] at few ⊢
      have first : (store.push frame).lag = store.lag + 1 := lag_push (by omega) frame
      have later : ((store.push frame).pushAll rest).lag = (store.push frame).lag + rest.length :=
        ih (by omega)
      change ((store.push frame).pushAll rest).lag = _
      omega

theorem count_pushAll :
    (store.pushAll frames).count = min (store.count + frames.length) (2 ^ k) := by
  rw [count_eq, count_eq, lag_pushAll few]
  omega

/-- Publications append, and the oldest frames go where there is no room for them. -/
theorem unread_pushAll :
    (store.pushAll frames).unread = (store.unread ++ frames).rtake (2 ^ k) := by
  induction frames generalizing store with
  | nil =>
      rw [List.append_nil, rtake_of_length_le (store.length_unread ▸ store.count_le)]
      rfl
  | cons frame rest ih =>
      rw [List.length_cons] at few
      have next : store.lag + 1 < counts := by omega
      have lag : (store.push frame).lag = store.lag + 1 := lag_push next frame
      have later : ((store.push frame).pushAll rest).unread =
          ((store.push frame).unread ++ rest).rtake (2 ^ k) := ih (by omega)
      rw [unread_push next, rtake_rtake_append, List.append_assoc] at later
      exact later

/-- Where there is room, the oldest frame stays in its slot. -/
theorem oldest_pushAll (room : store.count + frames.length ≤ 2 ^ k) :
    (store.pushAll frames).oldest = store.oldest := by
  have counted : (store.pushAll frames).count = store.count + frames.length := by
    rw [count_pushAll few]
    omega
  rw [oldest_eq, oldest_eq, counted, published_pushAll, UInt64.ofNat_add]
  grind

/-- How far the counter has run beyond the frame that was the oldest. -/
theorem toNat_published_sub_oldest :
    ((store.pushAll frames).published - store.oldest).toNat = store.count + frames.length := by
  have ahead : (store.pushAll frames).published - store.oldest =
      UInt64.ofNat (store.count + frames.length) := by
    rw [published_pushAll, oldest_eq, UInt64.ofNat_add]
    grind
  rw [ahead, UInt64.toNat_ofNat', Nat.mod_eq_of_lt]
  exact (Nat.add_le_add_right store.count_le_lag _).trans_lt few

end Few

/-- Whoever goes by a count of published frames loaded before sees the store as it was then. -/
theorem lag_loaded (store : Store α k) (frames : List α) :
    ({ store.pushAll frames with published := store.published } : Store α k).lag = store.lag := by
  change (store.published - (store.pushAll frames).consumed).toNat = _
  rw [consumed_pushAll, lag]

theorem pending_pushAll (store : Store α k) (frames : List α) :
    (store.pushAll frames).pending store.published = store.count := by
  rw [pending, count, lag_loaded, count]

theorem oldest_loaded (store : Store α k) (frames : List α) :
    ({ store.pushAll frames with published := store.published } : Store α k).oldest =
      store.oldest := by
  rw [oldest, oldest, lag_loaded, consumed_pushAll]

end PushAll

theorem unread_eq_nil : store.unread = [] ↔ store.lag = 0 := by
  rw [← List.length_eq_zero_iff, length_unread, count_eq]
  have positive := Nat.two_pow_pos k
  omega

theorem peek?_eq (store : Store α k) : store.peek? = store.unread.head? := by
  rw [peek?]
  split
  case isTrue none => rw [unread_eq_nil.mpr none, List.head?_nil]
  case isFalse some =>
    have present : 0 < store.unread.length :=
      List.length_pos_iff.mpr (mt unread_eq_nil.mp some)
    rw [List.head?_eq_getElem?, List.getElem?_eq_getElem present, getElem_unread, oldest_eq, recent,
      Nat.sub_zero]

theorem peek?_of_present (present : store.lag ≠ 0) :
    store.peek? = some (store.slots.get (slot k store.oldest)) := by
  rw [peek?, if_neg present]

theorem peek?_of_none (none : store.lag = 0) : store.peek? = .none := by
  rw [peek?, if_pos none]

/-- Where there is room, what a look shows stays what it shows. -/
theorem peek?_pushAll {frames : List α} {frame : α} (few : store.lag + frames.length < counts)
    (room : store.count + frames.length ≤ 2 ^ k) (shown : store.peek? = some frame) :
    (store.pushAll frames).peek? = some frame := by
  have fits : (store.unread ++ frames).length ≤ 2 ^ k := by
    rwa [List.length_append, length_unread]
  rw [peek?_eq] at shown ⊢
  rw [unread_pushAll few, rtake_of_length_le fits, List.head?_append, shown]
  rfl

section Pop

variable {frame : α} {rest : Store α k} (popped : store.pop? = some (frame, rest))
include popped

/-- What is taken is the frame that a look shows. -/
theorem peek?_of_pop : store.peek? = some frame ∧
    rest = { store with consumed := store.oldest + 1 } := by
  rw [pop?, Option.map_eq_some_iff] at popped
  obtain ⟨_, shown, same⟩ := popped
  cases same
  exact ⟨shown, rfl⟩

theorem count_pos : 0 < store.count := by
  obtain ⟨shown, _⟩ := peek?_of_pop popped
  rw [peek?_eq] at shown
  rw [← length_unread]
  exact List.length_pos_of_mem (List.mem_of_head? shown)

/-- A reader that takes a frame has the others still before it, and no more. -/
theorem lag_pop : rest.lag = store.count - 1 := by
  obtain ⟨_, rfl⟩ := peek?_of_pop popped
  have positive := count_pos popped
  have behind : store.published - (store.oldest + 1) = UInt64.ofNat (store.count - 1) := by
    have split : UInt64.ofNat store.count = UInt64.ofNat (store.count - 1) + 1 := by
      rw [← UInt64.ofNat_one, ← UInt64.ofNat_add, Nat.sub_add_cancel positive]
    rw [oldest_eq, split]
    grind
  rw [lag, behind, UInt64.toNat_ofNat', Nat.mod_eq_of_lt]
  exact (Nat.sub_le _ _).trans_lt store.count_lt

/-- A frame that is taken is the oldest one, and the others stay. -/
theorem unread_pop : store.unread = frame :: rest.unread := by
  obtain ⟨shown, same⟩ := peek?_of_pop popped
  have counted : rest.count = store.count - 1 := by
    have le := store.count_le
    rw [count_eq, lag_pop popped]
    omega
  have tail : store.unread.tail = rest.unread := by
    rw [unread_eq, unread_eq, counted, ← Nat.sub_add_cancel (count_pos popped),
      List.range_succ_eq_map, List.map_cons, List.tail_cons, List.map_map, same]
    simp [Function.comp_def, recent]
  rw [peek?_eq] at shown
  rw [← tail]
  exact (List.cons_head?_tail shown).symm

end Pop

theorem pop?_eq_none : store.pop? = none ↔ store.unread = [] := by
  rw [pop?, Option.map_eq_none_iff, peek?_eq, List.head?_eq_none_iff]

theorem unread_clear (store : Store α k) : store.clear.unread = [] :=
  unread_eq_nil.mpr (lag_clear store)

theorem unread_empty (filler : α) : (empty filler : Store α k).unread = [] :=
  unread_eq_nil.mpr (by simp [lag, empty])

/-- What holds of the frame in every slot, unread or not. -/
def All (p : α → Prop) (store : Store α k) : Prop := ∀ frame ∈ store.slots, p frame

section All

variable {p : α → Prop} {frame : α} {store' : Store α k}

theorem all_empty {filler : α} (h : p filler) : (empty filler : Store α k).All p := by
  intro frame mem
  rw [empty, Vector.mem_replicate] at mem
  exact mem.2 ▸ h

theorem All.push (h : store.All p) (new : p frame) : (store.push frame).All p := by
  intro other mem
  have inside := (slot k store.published).isLt
  rcases @Vector.mem_or_eq_of_mem_set _ _ store.slots _ _ _ inside mem with old | rfl
  · exact h other old
  · exact new

theorem All.peek? (h : store.All p) (shown : store.peek? = some frame) : p frame := by
  rw [Store.peek?] at shown
  split at shown
  · contradiction
  · cases shown
    exact h _ (Vector.getElem_mem _)

theorem All.pop? (h : store.All p) (popped : store.pop? = some (frame, store')) :
    p frame ∧ store'.All p := by
  rw [Store.pop?, Option.map_eq_some_iff] at popped
  obtain ⟨_, shown, same⟩ := popped
  cases same
  exact ⟨h.peek? shown, h⟩

end All

end Dmx512.Frame.Store
