import Dmx512.Proofs.Frame.Store

/-!
# Newest-N queues

A newest-N queue is a list to which a publication appends, and from which the oldest
entry is dropped where it would grow beyond its depth. The uses of a store, with what
they answer, are uses of such a queue; and what holds of every run of a queue holds
of every run of a store.
-/

namespace Dmx512.Frame

variable {α : Type} {depth k : Nat}

/-- A use of a store, with its answer. -/
inductive Use (α : Type) where
  /-- A frame is published. -/
  | publish (frame : α)
  /-- The oldest unread frame is taken, if there is one. -/
  | take (answer : Option α)
  /-- The oldest unread frame is looked at, if there is one. -/
  | look (answer : Option α)
  | flush
  deriving DecidableEq, Repr

namespace Use

def published : List (Use α) → List α
  | [] => []
  | .publish frame :: rest => frame :: published rest
  | _ :: rest => published rest

def taken : List (Use α) → List α
  | [] => []
  | .take (some frame) :: rest => frame :: taken rest
  | _ :: rest => taken rest

section

variable (frame : α) (rest : List (Use α))

@[simp] theorem published_publish : published (.publish frame :: rest) = frame :: published rest :=
  rfl

@[simp] theorem published_take : published (.take (some frame) :: rest) = published rest := rfl

@[simp] theorem taken_publish : taken (.publish frame :: rest) = taken rest := rfl

@[simp] theorem taken_take : taken (.take (some frame) :: rest) = frame :: taken rest := rfl

end

theorem published_append (first second : List (Use α)) :
    published (first ++ second) = published first ++ published second := by
  induction first with
  | nil => rfl
  | cons use rest ih => cases use <;> simp [published, ih]

@[simp] theorem published_map_publish (frames : List α) :
    published (frames.map .publish) = frames := by
  induction frames with
  | nil => rfl
  | cons frame rest ih => exact congrArg (frame :: ·) ih

/-- How many frames were published behind the one consumed last, if `n` were before the
use. A reader that was lapped skips what is gone when it takes a frame. -/
def behind (depth n : Nat) : Use α → Nat
  | .publish _ => n + 1
  | .take (some _) => min n depth - 1
  | .take none | .look _ => n
  | .flush => 0

/-- Fewer than `2 ^ 64` frames are ever published behind the one consumed last. -/
def Counted (depth : Nat) : Nat → List (Use α) → Prop
  | _, [] => True
  | n, use :: rest => use.behind depth n < Store.counts ∧ Counted depth (use.behind depth n) rest

instance Counted.decide : (n : Nat) → (uses : List (Use α)) → Decidable (Counted depth n uses)
  | _, [] => .isTrue trivial
  | n, use :: rest =>
    have := Counted.decide (use.behind depth n) rest
    inferInstanceAs (Decidable (_ ∧ _))

section Counted

variable {n : Nat} {first second : List (Use α)}

theorem Counted.front (h : Counted depth n (first ++ second)) : Counted depth n first := by
  induction first generalizing n with
  | nil => exact trivial
  | cons use rest ih => exact ⟨h.1, ih h.2⟩

/-- Publications that are counted lie behind the frame consumed last. -/
theorem Counted.published {frames : List α} (start : n < Store.counts)
    (h : Counted depth n (frames.map .publish)) : n + frames.length < Store.counts := by
  induction frames generalizing n with
  | nil => exact start
  | cons frame rest ih =>
      have later := ih h.1 h.2
      rw [behind] at later
      rw [List.length_cons]
      omega

end Counted

/-- Uses one after the other, where `step` says what each of them does. -/
inductive Chain {σ : Type} (step : σ → Use α → σ → Prop) : σ → List (Use α) → σ → Prop where
  | nil (s : σ) : Chain step s [] s
  | cons {s m t : σ} {use : Use α} {rest : List (Use α)} (first : step s use m)
      (later : Chain step m rest t) : Chain step s (use :: rest) t

namespace Chain

variable {σ : Type} {step : σ → Use α → σ → Prop} {s m t : σ} {first second : List (Use α)}

theorem append (h : Chain step s first m) (h' : Chain step m second t) :
    Chain step s (first ++ second) t := by
  induction h with
  | nil => exact h'
  | cons use _ ih => exact .cons use (ih h')

theorem split (h : Chain step s (first ++ second) t) :
    ∃ m, Chain step s first m ∧ Chain step m second t := by
  induction first generalizing s with
  | nil => exact ⟨s, .nil s, h⟩
  | cons use rest ih =>
      cases h with
      | cons used later =>
          obtain ⟨m, before, behind⟩ := ih later
          exact ⟨m, .cons used before, behind⟩

end Chain

end Use

open Use (Chain published taken)

inductive Queue.Serves (depth : Nat) : List α → Use α → List α → Prop where
  | publish (queue : List α) (frame : α) :
      Serves depth queue (.publish frame) ((queue ++ [frame]).rtake depth)
  | take (frame : α) (rest : List α) : Serves depth (frame :: rest) (.take (some frame)) rest
  | empty : Serves depth [] (.take none) []
  | look (queue : List α) : Serves depth queue (.look queue.head?) queue
  | flush (queue : List α) : Serves depth queue .flush []

abbrev Queue.Runs (depth : Nat) : List α → List (Use α) → List α → Prop :=
  Chain (Queue.Serves depth)

namespace Queue.Runs

variable {queue queue' older newer : List α} {uses : List (Use α)}

/-- Frames are taken in the order in which they were published, and each at most once. -/
theorem ordered (h : Runs depth queue uses queue') :
    (taken uses ++ queue').Sublist (queue ++ published uses) := by
  induction h with
  | nil queue => exact (List.append_nil queue).symm ▸ List.Sublist.refl queue
  | @cons queue _ _ _ rest use _ ih =>
      cases use with
      | publish _ frame =>
          have kept : ((queue ++ [frame]).rtake depth).Sublist (queue ++ [frame]) :=
            (List.drop_suffix _ _).sublist
          have shown := ih.trans (kept.append_right (published rest))
          rwa [List.append_assoc] at shown
      | take => exact ih.cons_cons _
      | empty | look => exact ih
      | flush => exact ih.trans (List.sublist_append_right _ _)

/-- Looks leave a queue as it is. -/
theorem unmoved (h : Runs depth queue uses queue')
    (looks : ∀ use ∈ uses, ∃ other, use = .look other) : queue' = queue := by
  induction h with
  | nil => rfl
  | cons use _ ih =>
      obtain ⟨⟨_, rfl⟩, others⟩ := List.forall_mem_cons.mp looks
      cases use
      exact ih others

/-- A look shows what is taken next, if nothing is published in between. -/
theorem looked {looks later : List (Use α)} {shown answer : Option α}
    (h : Runs depth queue (.look shown :: (looks ++ .take answer :: later)) queue')
    (only : ∀ use ∈ looks, ∃ other, use = .look other) : answer = shown := by
  cases h with
  | cons look rest =>
      obtain ⟨middle, looked, takes⟩ := rest.split
      cases look
      cases unmoved looked only
      cases takes with
      | cons take _ => cases take <;> rfl

/-- What is newer than all but the newest frames stays, unless it is taken or flushed:
a frame is lost only to a flush or to as many newer ones as the queue is deep. -/
theorem kept (h : Runs depth (older ++ newer) uses queue') (unflushed : .flush ∉ uses)
    (room : newer.length + (published uses).length ≤ depth) :
    ∃ rest, rest.Sublist older ∧ taken uses ++ queue' = rest ++ newer ++ published uses := by
  induction uses generalizing older newer with
  | nil =>
      cases h
      exact ⟨older, List.Sublist.refl _, (List.append_nil _).symm⟩
  | cons use others ih =>
      have unflushed' : .flush ∉ others := fun mem => unflushed (List.mem_cons_of_mem _ mem)
      cases h with
      | @cons _ remaining _ _ _ used later =>
          generalize whole : older ++ newer = queue at used
          cases used with
          | publish _ frame =>
              rw [Use.published_publish, List.length_cons] at room
              have shifted : ((older ++ newer) ++ [frame]).rtake depth =
                  older.drop ((older ++ (newer ++ [frame])).length - depth) ++
                    (newer ++ [frame]) := by
                rw [List.rtake, List.append_assoc, List.drop_append_of_le_length]
                simp only [List.length_append, List.length_singleton]
                omega
              rw [← whole, shifted] at later
              obtain ⟨rest, sublist, told⟩ := ih later unflushed' (by simp; omega)
              refine ⟨rest, sublist.trans (List.drop_sublist _ _), ?_⟩
              rw [Use.taken_publish, told, Use.published_publish]
              simp
          | take frame =>
              rw [Use.taken_take, Use.published_take, List.cons_append]
              rw [Use.published_take] at room
              cases older with
              | nil =>
                  cases whole
                  have room' : remaining.length + (published others).length ≤ depth := by
                    rw [List.length_cons] at room
                    omega
                  obtain ⟨rest, sublist, told⟩ :=
                    ih (show Runs depth ([] ++ remaining) others queue' from later) unflushed' room'
                  cases List.sublist_nil.mp sublist
                  exact ⟨[], List.Sublist.refl _, congrArg (frame :: ·) told⟩
              | cons first older =>
                  cases whole
                  obtain ⟨rest, sublist, told⟩ := ih later unflushed' room
                  exact ⟨frame :: rest, sublist.cons_cons _, congrArg (frame :: ·) told⟩
          | empty | look => exact ih (whole ▸ later) unflushed' room
          | flush => exact absurd List.mem_cons_self unflushed

end Queue.Runs

/-- What a user may rely on in a run of a newest-N queue. -/
structure Queue.Laws (depth : Nat) (before : List α) (uses : List (Use α)) (after : List α) :
    Prop where
  /-- Each use answers, and leaves, what the queue says. -/
  runs : Runs depth before uses after
  /-- Frames are taken in the order in which they were published, and none twice. -/
  ordered : (taken uses ++ after).Sublist (before ++ published uses)
  /-- A look shows what is taken next, if nothing is published in between. -/
  looked : ∀ earlier shown looks answer later,
    uses = earlier ++ .look shown :: (looks ++ .take answer :: later) →
    (∀ use ∈ looks, ∃ other, use = .look other) → answer = shown
  /-- At any time, the frames `newer` that fewer than the depth follow are all taken or
  unread in the end, in their order, unless there is a flush. -/
  kept : ∀ earlier later, uses = earlier ++ later → ∃ middle,
    Runs depth before earlier middle ∧ Runs depth middle later after ∧
    ∀ older newer, middle = older ++ newer → .flush ∉ later →
      newer.length + (published later).length ≤ depth →
      ∃ rest, rest.Sublist older ∧ taken later ++ after = rest ++ newer ++ published later

theorem Queue.Runs.laws {before after : List α} {uses : List (Use α)}
    (h : Runs depth before uses after) : Laws depth before uses after where
  runs := h
  ordered := h.ordered
  looked := by
    rintro earlier shown looks answer later rfl only
    obtain ⟨_, _, looks⟩ := Chain.split h
    exact looked looks only
  kept := by
    rintro earlier later rfl
    obtain ⟨middle, first, second⟩ := Chain.split h
    refine ⟨middle, first, second, ?_⟩
    rintro older newer rfl unflushed room
    exact kept second unflushed room

inductive Store.Serves : Store α k → Use α → Store α k → Prop where
  | publish (store : Store α k) (frame : α) : Serves store (.publish frame) (store.push frame)
  | take {store rest : Store α k} {frame : α} (popped : store.pop? = some (frame, rest)) :
      Serves store (.take (some frame)) rest
  | empty {store : Store α k} (popped : store.pop? = none) : Serves store (.take none) store
  | look (store : Store α k) : Serves store (.look store.peek?) store
  | flush (store : Store α k) : Serves store .flush store.clear

abbrev Store.Runs : Store α k → List (Use α) → Store α k → Prop := Chain Store.Serves

namespace Store

variable {store store' : Store α k} {use : Use α} {uses : List (Use α)}

/-- A use of a store is one of the queue of its unread frames. -/
theorem Serves.queue (h : Serves store use store')
    (counted : use.behind (2 ^ k) store.lag < counts) :
    Queue.Serves (2 ^ k) store.unread use store'.unread ∧
      store'.lag = use.behind (2 ^ k) store.lag := by
  cases h with
  | publish frame =>
      rw [unread_push counted frame]
      exact ⟨.publish _ _, lag_push counted frame⟩
  | take popped =>
      rw [unread_pop popped, lag_pop popped, count_eq]
      exact ⟨.take _ _, rfl⟩
  | empty popped =>
      rw [pop?_eq_none.mp popped]
      exact ⟨.empty, rfl⟩
  | look =>
      rw [peek?_eq]
      exact ⟨.look _, rfl⟩
  | flush =>
      rw [unread_clear]
      exact ⟨.flush _, lag_clear store⟩

/-- A reader takes the oldest unread frame, and leaves the others. -/
theorem Serves.takes {answer : Option α} (h : Serves store (.take answer) store') :
    answer = store.unread.head? ∧ store'.unread = store.unread.tail := by
  cases h with
  | take popped =>
      rw [unread_pop popped]
      exact ⟨rfl, rfl⟩
  | empty popped =>
      rw [pop?_eq_none.mp popped]
      exact ⟨rfl, rfl⟩

/-- A frame that answers a reader was there to be read. -/
theorem Serves.mem_unread {frame : α} (h : Serves store use store')
    (answers : use = .take (some frame) ∨ use = .look (some frame)) : frame ∈ store.unread := by
  cases h with
  | publish | empty | flush => simp at answers
  | take popped =>
      obtain ⟨rfl⟩ : _ = frame := by simpa using answers
      rw [unread_pop popped]
      exact List.mem_cons_self
  | look =>
      have shown : store.peek? = some frame := by simpa using answers
      rw [peek?_eq] at shown
      exact List.mem_of_head? shown

/-- Every run of a store is a run of the queue of its unread frames, as long as its
counters tell the frames apart. -/
theorem Runs.queue (h : Runs store uses store')
    (counted : Use.Counted (2 ^ k) store.lag uses) :
    Queue.Runs (2 ^ k) store.unread uses store'.unread := by
  induction h with
  | nil store => exact .nil _
  | cons used _ ih =>
      obtain ⟨first, others⟩ := counted
      obtain ⟨served, lag⟩ := used.queue first
      exact .cons served (ih (lag ▸ others))

/-- What is counted behind a run is counted on from what the run leaves. -/
theorem Runs.counted {more : List (Use α)} (h : Runs store uses store')
    (counted : Use.Counted (2 ^ k) store.lag (uses ++ more)) :
    Use.Counted (2 ^ k) store'.lag more := by
  induction h with
  | nil => exact counted
  | cons used _ ih =>
      obtain ⟨first, others⟩ := counted
      obtain ⟨_, lag⟩ := used.queue first
      exact ih (lag ▸ others)

theorem Runs.takes {answer : Option α} (h : Runs store [.take answer] store') :
    answer = store.unread.head? ∧ store'.unread = store.unread.tail := by
  cases h with
  | cons used rest =>
      cases rest
      exact used.takes

theorem runs_pushAll (store : Store α k) (frames : List α) :
    Runs store (frames.map .publish) (store.pushAll frames) := by
  induction frames generalizing store with
  | nil => exact .nil store
  | cons frame rest ih => exact .cons (.publish store frame) (ih _)

end Store

end Dmx512.Frame
