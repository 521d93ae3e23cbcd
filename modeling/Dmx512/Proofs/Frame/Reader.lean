import Dmx512.Frame.Reader
import Dmx512.Proofs.Frame.Queue

/-!
# A reader takes effect at one moment

Whatever is published while a reader works, and wherever it stands then, it does to the store what
it would do at once at the moment when it loads the count of published frames for the last time.
The frames published until then stand before that, and those published since stand behind it. What
a reader knows at each place where it may stand is `Knows`; every step and every publication keeps
it. Left alone, a reader ends.
-/

namespace Dmx512.Frame

variable {α : Type} {k : Nat} {copier : Copier α} {task : Task} {start desk : Desk α k}
variable {seen unseen : List α}

/-- How a store is used by a task that is answered. -/
def Task.use : Task → Option α → Use α
  | .take, answer => .take answer
  | .look, answer => .look answer
  | .flush, _ => .flush

/-- Put the first parts of a frame into a buffer. -/
def Copier.front (copier : Copier α) (parts : Nat) (frame buffer : α) : α :=
  (List.range parts).foldl (fun buffer part => copier.copy part frame buffer) buffer

theorem Copier.front_succ (parts : Nat) (frame buffer : α) :
    copier.front (parts + 1) frame buffer =
      copier.copy parts frame (copier.front parts frame buffer) := by
  rw [front, front, List.range_succ, List.foldl_concat]

/-- Frames that the counters tell apart from those behind the frame consumed last. -/
def Desk.Near (start : Desk α k) (frames : List α) : Prop :=
  start.store.lag + frames.length < Store.counts

theorem Desk.Near.lag (near : start.Near (seen ++ unseen)) :
    ((start.store.pushAll seen).pushAll unseen).lag =
      (start.store.pushAll seen).lag + unseen.length ∧
    (start.store.pushAll seen).lag + unseen.length < Store.counts := by
  rw [Near, List.length_append] at near
  have first : (start.store.pushAll seen).lag = start.store.lag + seen.length :=
    Store.lag_pushAll (by omega)
  have few : (start.store.pushAll seen).lag + unseen.length < Store.counts := by omega
  exact ⟨Store.lag_pushAll few, few⟩

namespace Stand

/-- What a reader knows where it stands, that began its task at `start`: `seen` were published until
it loaded their count last, `unseen` since. What it knows of a frame holds as long as the store has
not come round to it. -/
def Knows (copier : Copier α) (task : Task) (start : Desk α k) (seen unseen : List α)
    (desk : Desk α k) : Stand → Prop
  | .loading => desk.store = (start.store.pushAll seen).pushAll unseen ∧
      (task = .flush → desk.buffer = start.buffer) ∧
      (start.Near (seen ++ unseen) → desk.store.lag = 0 → desk.buffer = start.buffer)
  | .measuring published => desk.store = (start.store.pushAll seen).pushAll unseen ∧
      task ≠ .flush ∧ published = (start.store.pushAll seen).published ∧
      (start.Near seen → (start.store.pushAll seen).lag = 0 → desk.buffer = start.buffer)
  | .copying sequence part => desk.store = (start.store.pushAll seen).pushAll unseen ∧
      task ≠ .flush ∧ (start.store.pushAll seen).lag ≠ 0 ∧
      sequence = (start.store.pushAll seen).oldest ∧ part ≤ copier.parts ∧
      (start.Near (seen ++ unseen) → (start.store.pushAll seen).count + unseen.length ≤ 2 ^ k →
        ∃ frame buffer, (start.store.pushAll seen).peek? = some frame ∧
          desk.buffer = copier.front part frame buffer)
  | .checking sequence => desk.store = (start.store.pushAll seen).pushAll unseen ∧
      task ≠ .flush ∧ (start.store.pushAll seen).lag ≠ 0 ∧
      sequence = (start.store.pushAll seen).oldest ∧
      (start.Near (seen ++ unseen) → (start.store.pushAll seen).count + unseen.length ≤ 2 ^ k →
        (start.store.pushAll seen).peek? = some desk.buffer)
  | .storing consumed => desk.store = (start.store.pushAll seen).pushAll unseen ∧
      task ≠ .look ∧ (task = .flush → desk.buffer = start.buffer) ∧
      (start.Near seen → (start.store.pushAll seen).Serves (task.use (some desk.buffer))
        { start.store.pushAll seen with consumed })
  | .done found => ∃ after : Store α k, desk.store = after.pushAll unseen ∧
      (task = .flush → found = false) ∧
      (start.Near seen → (found = false → desk.buffer = start.buffer) ∧
        (start.store.pushAll seen).Serves (task.use (if found then some desk.buffer else none))
          after)

/-- Publications take nothing from what a reader knows. -/
theorem Knows.publish {stand : Stand} (h : stand.Knows copier task start seen unseen desk)
    (frames : List α) : stand.Knows copier task start seen (unseen ++ frames)
      { desk with store := desk.store.pushAll frames } := by
  have shorter (near : start.Near (seen ++ (unseen ++ frames))) : start.Near (seen ++ unseen) := by
    simp only [Desk.Near, List.length_append] at near ⊢
    omega
  have room (short : (start.store.pushAll seen).count + (unseen ++ frames).length ≤ 2 ^ k) :
      (start.store.pushAll seen).count + unseen.length ≤ 2 ^ k := by
    rw [List.length_append] at short
    omega
  cases stand with
  | loading =>
      obtain ⟨store, idle, clean⟩ := h
      refine ⟨by rw [store, Store.pushAll_append], idle, fun near none => clean (shorter near) ?_⟩
      have behind : (desk.store.pushAll frames).lag = desk.store.lag + frames.length := by
        apply Store.lag_pushAll
        obtain ⟨_, few⟩ := near.lag
        rw [List.length_append] at few
        rw [store, (shorter near).lag.1]
        omega
      change (desk.store.pushAll frames).lag = 0 at none
      omega
  | measuring published =>
      obtain ⟨store, polls, loaded, clean⟩ := h
      exact ⟨by rw [store, Store.pushAll_append], polls, loaded, clean⟩
  | copying sequence part =>
      obtain ⟨store, polls, present, oldest, within, copied⟩ := h
      exact ⟨by rw [store, Store.pushAll_append], polls, present, oldest, within,
        fun near short => copied (shorter near) (room short)⟩
  | checking sequence =>
      obtain ⟨store, polls, present, oldest, copied⟩ := h
      exact ⟨by rw [store, Store.pushAll_append], polls, present, oldest,
        fun near short => copied (shorter near) (room short)⟩
  | storing consumed =>
      obtain ⟨store, stores, idle, serves⟩ := h
      exact ⟨by rw [store, Store.pushAll_append], stores, idle, serves⟩
  | done found =>
      obtain ⟨after, store, idle, serves⟩ := h
      exact ⟨after, by rw [store, Store.pushAll_append], idle, serves⟩

theorem Knows.load (h : Stand.loading.Knows copier task start seen unseen desk) :
    (begin desk.store.published task).Knows copier task start (seen ++ unseen) [] desk := by
  obtain ⟨store, idle, clean⟩ := h
  rw [← Store.pushAll_append] at store
  cases task with
  | take | look =>
      refine ⟨store, by simp, congrArg Store.published store, fun near none => clean near ?_⟩
      rwa [store]
  | flush =>
      refine ⟨store, by simp, idle, fun _ => ?_⟩
      rw [store]
      exact .flush _

theorem Knows.measure {published : UInt64}
    (h : (Stand.measuring published).Knows copier task start seen unseen desk) :
    ((Stand.measuring published).next copier task desk).1.Knows copier task start seen unseen
      ((Stand.measuring published).next copier task desk).2 := by
  obtain ⟨store, polls, rfl, clean⟩ := h
  rw [Stand.next]
  simp only [store, Store.lag_loaded, Store.oldest_loaded]
  split
  case isTrue none =>
    refine ⟨_, store, fun _ => rfl, fun near => ⟨fun _ => clean near none, ?_⟩⟩
    have shown := Store.peek?_of_none none
    cases task with
    | take => exact .empty (by rw [Store.pop?, shown]; rfl)
    | look => exact shown ▸ Store.Serves.look (start.store.pushAll seen)
    | flush => contradiction
  case isFalse present =>
    exact ⟨store, polls, present, rfl, Nat.zero_le _,
      fun _ _ => ⟨_, desk.buffer, Store.peek?_of_present present, rfl⟩⟩

theorem Knows.copy {sequence : UInt64} {part : Nat}
    (h : (Stand.copying sequence part).Knows copier task start seen unseen desk) :
    ((Stand.copying sequence part).next copier task desk).1.Knows copier task start seen unseen
      ((Stand.copying sequence part).next copier task desk).2 := by
  obtain ⟨store, polls, present, rfl, within, copied⟩ := h
  rw [Stand.next]
  split
  case isTrue more =>
    refine ⟨store, polls, present, rfl, more, fun near room => ?_⟩
    obtain ⟨frame, buffer, shown, front⟩ := copied near room
    obtain ⟨lag, few⟩ := near.lag
    refine ⟨frame, buffer, shown, ?_⟩
    -- The frame is in its slot still, so another part of it is copied.
    have stays : some (desk.store.slots.get (Store.slot k (start.store.pushAll seen).oldest)) =
        some frame := by
      rw [← Store.peek?_pushAll few room shown, ← Store.oldest_pushAll few room, store]
      exact (Store.peek?_of_present (by omega)).symm
    rw [Copier.front_succ, ← front, Option.some_inj.mp stays]
  case isFalse last =>
    obtain rfl : part = copier.parts := by omega
    refine ⟨store, polls, present, rfl, fun near room => ?_⟩
    obtain ⟨frame, buffer, shown, front⟩ := copied near room
    rw [shown, front, Copier.front, copier.whole]

theorem Knows.check {sequence : UInt64}
    (h : (Stand.checking sequence).Knows copier task start seen unseen desk) :
    ((Stand.checking sequence).next copier task desk).1.Knows copier task start (seen ++ unseen) []
      ((Stand.checking sequence).next copier task desk).2 := by
  obtain ⟨store, polls, present, rfl, copied⟩ := h
  have store' : desk.store = start.store.pushAll (seen ++ unseen) := by
    rw [store, Store.pushAll_append]
  rw [Stand.next]
  split
  case isTrue lapped =>
    refine ⟨store', fun flushes => absurd flushes polls, fun near none => absurd none ?_⟩
    rw [List.append_nil] at near
    rw [store, near.lag.1]
    omega
  case isFalse held =>
    -- The oldest frame was in its slot throughout, and is the oldest one now.
    have reached (near : start.Near (seen ++ unseen)) :
        (start.store.pushAll (seen ++ unseen)).peek? = some desk.buffer ∧
          (start.store.pushAll (seen ++ unseen)).oldest = (start.store.pushAll seen).oldest := by
      obtain ⟨lag, few⟩ := near.lag
      have room : (start.store.pushAll seen).count + unseen.length ≤ 2 ^ k := by
        rw [store, Store.toNat_published_sub_oldest few, Nat.one_shiftLeft] at held
        omega
      rw [Store.pushAll_append]
      exact ⟨Store.peek?_pushAll few room (copied near room), Store.oldest_pushAll few room⟩
    cases task with
    | take =>
        refine ⟨store', by simp, by simp, fun near => ?_⟩
        obtain ⟨shown, oldest⟩ := reached near
        apply Store.Serves.take
        rw [Store.pop?, shown, oldest]
        rfl
    | look =>
        refine ⟨_, store', by simp, fun near => ⟨by simp, ?_⟩⟩
        obtain ⟨shown, _⟩ := reached near
        exact shown ▸ Store.Serves.look (start.store.pushAll (seen ++ unseen))
    | flush => contradiction

/-- A step keeps what a reader knows; a load of the count brings in what was unseen. -/
theorem Knows.next {stand : Stand} (h : stand.Knows copier task start seen unseen desk) :
    (stand.next copier task desk).1.Knows copier task start
      (if stand.loads then seen ++ unseen else seen) (if stand.loads then [] else unseen)
      (stand.next copier task desk).2 := by
  cases stand with
  | loading => exact h.load
  | measuring published => exact h.measure
  | copying sequence part => exact h.copy
  | checking sequence => exact h.check
  | storing consumed =>
      obtain ⟨store, stores, idle, serves⟩ := h
      have store' : { desk.store with consumed } =
          ({ start.store.pushAll seen with consumed } : Store α k).pushAll unseen :=
        (congrArg (fun store => { store with consumed }) store).trans (Store.consume_pushAll _ _ _)
      cases task with
      | take => exact ⟨_, store', by simp, fun near => ⟨by simp, serves near⟩⟩
      | look => contradiction
      | flush => exact ⟨_, store', fun _ => rfl, fun near => ⟨fun _ => idle rfl, serves near⟩⟩
  | done found => exact h

/-- How far a reader is from its end, if it gives up no copy. -/
def rank (parts : Nat) : Stand → Nat
  | .loading => parts + 5
  | .measuring _ => parts + 4
  | .copying _ part => parts - part + 3
  | .checking _ => 2
  | .storing _ => 1
  | .done _ => 0

/-- A step brings a reader nearer to its end, but where it gives up a copy because of what was
published behind the count that it has loaded. -/
theorem Knows.nearer {stand : Stand} (h : stand.Knows copier task start seen unseen desk) :
    (∃ found, stand = .done found) ∨
      (stand.next copier task desk).1.rank copier.parts < stand.rank copier.parts ∨
      stand.loads = true ∧ unseen ≠ [] ∧ (stand.next copier task desk).1 = .loading := by
  cases stand with
  | done found => exact .inl ⟨found, rfl⟩
  | loading =>
      right; left
      cases task <;> simp only [Stand.next, begin, rank] <;> omega
  | measuring published =>
      right; left
      rw [Stand.next]
      dsimp only
      split <;> simp only [rank] <;> omega
  | copying sequence part =>
      obtain ⟨_, _, _, _, within, _⟩ := h
      right; left
      rw [Stand.next]
      split <;> simp only [rank] <;> omega
  | checking sequence =>
      obtain ⟨store, _, _, rfl, _⟩ := h
      rw [Stand.next]
      split
      case isTrue lapped =>
        refine .inr (.inr ⟨rfl, ?_, rfl⟩)
        rintro rfl
        have few : (start.store.pushAll seen).lag + ([] : List α).length < Store.counts :=
          Store.lag_lt _
        rw [store, Store.toNat_published_sub_oldest few, Nat.one_shiftLeft] at lapped
        exact absurd (start.store.pushAll seen).count_le (Nat.not_le_of_lt lapped)
      case isFalse =>
        right; left
        cases task <;> simp only [settle, rank] <;> omega
  | storing consumed => exact .inr (.inl Nat.zero_lt_one)

end Stand

namespace Reader

variable {reader : Reader α}

def Knows (copier : Copier α) (task : Task) (start : Desk α k) (reader : Reader α)
    (desk : Desk α k) : Prop :=
  reader.stand.Knows copier task start reader.seen reader.unseen desk

theorem Knows.begin (desk : Desk α k) : ({} : Reader α).Knows copier task desk desk :=
  ⟨rfl, fun _ => rfl, fun _ _ => rfl⟩

theorem Knows.notice (h : reader.Knows copier task start desk) (frames : List α) :
    (reader.notice frames).Knows copier task start
      { desk with store := desk.store.pushAll frames } :=
  Stand.Knows.publish h frames

theorem Knows.step (h : reader.Knows copier task start desk) :
    (reader.step copier task desk).1.Knows copier task start (reader.step copier task desk).2 :=
  Stand.Knows.next h

/-- What was published stays told, on whichever side of the load. -/
theorem seen_append_unseen_step (reader : Reader α) (desk : Desk α k) :
    (reader.step copier task desk).1.seen ++ (reader.step copier task desk).1.unseen =
      reader.seen ++ reader.unseen := by
  rw [Reader.step]
  dsimp only
  cases reader.stand.loads with
  | true => exact List.append_nil _
  | false => rfl

theorem Knows.steps (h : reader.Knows copier task start desk) (count : Nat) :
    (Reader.steps copier task count reader desk).1.Knows copier task start
        (Reader.steps copier task count reader desk).2 ∧
      (Reader.steps copier task count reader desk).1.seen ++
          (Reader.steps copier task count reader desk).1.unseen =
        reader.seen ++ reader.unseen := by
  induction count generalizing reader desk with
  | zero => exact ⟨h, rfl⟩
  | succ count ih =>
      obtain ⟨knows, told⟩ := ih h.step
      exact ⟨knows, told.trans (seen_append_unseen_step reader desk)⟩

/-- How many steps a reader needs at most. Only a copy that frames were published behind is given
up, and only once: the count that is loaded then knows of them. -/
def rank (copier : Copier α) (reader : Reader α) : Nat :=
  reader.stand.rank copier.parts + if reader.unseen = [] then 0 else copier.parts + 6

theorem Knows.rank_step (h : reader.Knows copier task start desk) :
    (∃ found, reader.stand = .done found) ∨
      (reader.step copier task desk).1.rank copier < reader.rank copier := by
  obtain done | nearer | ⟨loads, some, again⟩ := Stand.Knows.nearer h
  · exact .inl done
  · have fewer : (if (reader.step copier task desk).1.unseen = [] then 0 else copier.parts + 6) ≤
        if reader.unseen = [] then 0 else copier.parts + 6 := by
      rw [Reader.step]
      dsimp only
      cases reader.stand.loads with
      | true => exact Nat.zero_le _
      | false => exact Nat.le_refl _
    exact .inr (Nat.add_lt_add_of_lt_of_le nearer fewer)
  · right
    rw [rank, rank, Reader.step]
    dsimp only
    rw [loads, again, if_neg some, if_pos rfl, if_pos rfl, Stand.rank]
    omega

theorem rank_le (reader : Reader α) : reader.rank copier ≤ copier.patience := by
  have stand : reader.stand.rank copier.parts ≤ copier.parts + 5 := by
    cases reader.stand <;> simp only [Stand.rank] <;> omega
  rw [rank, Copier.patience]
  split <;> omega

theorem steps_done {found : Bool} (done : reader.stand = .done found) (count : Nat) :
    Reader.steps copier task count reader desk = (reader, desk) := by
  induction count with
  | zero => rfl
  | succ count ih =>
      have still : reader.step copier task desk = (reader, desk) := by
        obtain ⟨stand, seen, unseen⟩ := reader
        subst done
        rfl
      rw [steps, still]
      exact ih

theorem Knows.ends {count : Nat} (h : reader.Knows copier task start desk)
    (enough : reader.rank copier ≤ count) :
    ∃ found, (Reader.steps copier task count reader desk).1.stand = .done found := by
  induction count generalizing reader desk with
  | zero =>
      obtain done | further := h.rank_step
      · exact done
      · omega
  | succ count ih =>
      obtain ⟨found, done⟩ | further := h.rank_step
      · rw [steps_done done]
        exact ⟨found, done⟩
      · have fewer : (reader.step copier task desk).1.rank copier ≤ count := by omega
        exact ih h.step fewer

/-- How a store is used while a reader works: the reader comes in where it loaded the count of
published frames last. -/
def uses (task : Task) (reader : Reader α) (answer : Option α) : List (Use α) :=
  reader.seen.map .publish ++ task.use answer :: reader.unseen.map .publish

/-- What a reader has done to a store, and to its buffer. -/
structure Served (task : Task) (start : Desk α k) (reader : Reader α) (answer : Option α)
    (desk : Desk α k) : Prop where
  runs : start.Near reader.seen → start.store.Runs (reader.uses task answer) desk.store
  idle : start.Near reader.seen → answer = none → desk.buffer = start.buffer
  copied : ∀ frame, answer = some frame → desk.buffer = frame
  flushed : task = .flush → answer = none

theorem Knows.served {found : Bool} (h : reader.Knows copier task start desk)
    (done : reader.stand = .done found) :
    reader.Served task start (reader.answer desk) desk := by
  obtain ⟨stand, seen, unseen⟩ := reader
  obtain rfl : stand = .done found := done
  obtain ⟨after, store, flushed, serves⟩ := h
  have answer : Reader.answer ⟨.done found, seen, unseen⟩ desk =
      if found then some desk.buffer else none := by cases found <;> rfl
  rw [answer]
  refine ⟨fun near => ?_, fun near none => (serves near).1 ?_, ?_, fun flushes => ?_⟩
  · rw [store]
    exact (Store.runs_pushAll start.store seen).append
      (.cons (serves near).2 (Store.runs_pushAll after unseen))
  · cases found with
    | false => rfl
    | true => cases none
  · cases found with
    | false => exact nofun
    | true => exact fun frame same => Option.some_inj.mp same
  · rw [flushed flushes]
    rfl

/-- A reader that is left alone ends, and has done what its task is, whatever came in between
before. -/
theorem Knows.finish (h : reader.Knows copier task start desk) :
    (reader.finish copier task desk).1.1.Served task start (reader.finish copier task desk).1.2
        (reader.finish copier task desk).2 ∧
      (reader.finish copier task desk).1.1.seen ++ (reader.finish copier task desk).1.1.unseen =
        reader.seen ++ reader.unseen := by
  obtain ⟨found, done⟩ := h.ends (rank_le reader)
  obtain ⟨knows, told⟩ := h.steps copier.patience
  exact ⟨knows.served done, told⟩

end Reader

/-- What a task answers, and what it does to a store and a buffer, if nothing comes in between. -/
def Task.atOnce (desk : Desk α k) : Task → Option α × Desk α k
  | .take =>
    match desk.store.pop? with
    | none => (none, desk)
    | some (frame, store) => (some frame, { store, buffer := frame })
  | .look =>
    match desk.store.peek? with
    | none => (none, desk)
    | some frame => (some frame, { desk with buffer := frame })
  | .flush => (none, { desk with store := desk.store.clear })

theorem Reader.Served.atOnce {reader : Reader α} {answer : Option α}
    (h : reader.Served task start answer desk) (alone : reader.seen ++ reader.unseen = []) :
    (answer, desk) = task.atOnce start := by
  obtain ⟨seen, unseen⟩ := List.append_eq_nil_iff.mp alone
  have near : start.Near reader.seen := seen ▸ Store.lag_lt start.store
  have runs := h.runs near
  have idle := h.idle near
  rw [uses, seen, unseen] at runs
  cases runs with
  | cons used rest =>
    cases rest
    obtain ⟨store, buffer⟩ := desk
    cases task with
    | take =>
        cases used with
        | take popped =>
            obtain rfl := h.copied _ rfl
            rw [Task.atOnce, popped]
        | empty popped =>
            obtain rfl := idle rfl
            rw [Task.atOnce, popped]
    | look =>
        cases used
        rw [Task.atOnce]
        cases shown : start.store.peek? with
        | none =>
            obtain rfl := idle shown
            rfl
        | some frame =>
            obtain rfl := h.copied frame shown
            rfl
    | flush =>
        obtain rfl := h.flushed rfl
        obtain rfl := idle rfl
        cases used
        rfl

/-- A reader that is left alone throughout does what its task is at once. -/
theorem Reader.finish_atOnce (copier : Copier α) (task : Task) (desk : Desk α k) :
    ((({} : Reader α).finish copier task desk).1.2, (({} : Reader α).finish copier task desk).2) =
      task.atOnce desk := by
  have knows : ({} : Reader α).Knows copier task desk desk := .begin desk
  obtain ⟨served, told⟩ := knows.finish
  exact served.atOnce told

end Dmx512.Frame
