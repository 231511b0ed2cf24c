import EdgeSentinel.Library.Exec
import EdgeSentinel.Library.SizeT

/-! The bounded queue. Every operation holds the queue mutex from its decisive
check to its last write, so it is one step; a wait appears only as the moment it
ends, and an operation that would go on waiting is disabled. -/
namespace EdgeSentinel

inductive QueuePushResult where
  | pushed
  | full
  | timeout
  | closed
  deriving DecidableEq, Repr

structure QueueStats where
  highWatermark : Nat := 0
  pushed : Nat := 0
  popped : Nat := 0
  rejectedFull : Nat := 0
  pushTimeouts : Nat := 0
  deriving DecidableEq, Repr

structure BoundedQueue (T : Type) (capacity : Nat) where
  slots : Vector (Option T) capacity := Vector.replicate capacity none
  head : Nat := 0
  tail : Nat := 0
  size : Nat := 0
  closed : Bool := false
  stats : QueueStats := {}
  deriving DecidableEq, Repr

namespace BoundedQueue

variable {T : Type} {capacity : Nat}

def cell (q : BoundedQueue T capacity) (index : Nat) : Option T := q.slots[index]?.join

def pushLocked (q : BoundedQueue T capacity) (value : T) : BoundedQueue T capacity :=
  { q with
    slots := q.slots.setIfInBounds q.tail (some value)
    tail := (q.tail + 1) % capacity
    size := q.size + 1
    stats :=
      { q.stats with
        pushed := SizeT.increment q.stats.pushed
        highWatermark :=
          if q.size + 1 > q.stats.highWatermark then q.size + 1 else q.stats.highWatermark } }

def popLocked (q : BoundedQueue T capacity) : BoundedQueue T capacity × Option T :=
  ({ q with
      slots := q.slots.setIfInBounds q.head none
      head := (q.head + 1) % capacity
      size := q.size - 1
      stats := { q.stats with popped := SizeT.increment q.stats.popped } },
    q.cell q.head)

def tryPush (q : BoundedQueue T capacity) (value : T) :
    BoundedQueue T capacity × QueuePushResult :=
  if q.closed then (q, .closed)
  else if q.size = capacity then
    ({ q with
        stats := { q.stats with rejectedFull := SizeT.increment q.stats.rejectedFull } }, .full)
  else (q.pushLocked value, .pushed)

/-- The end of the wait: its predicate holds, or the time is up and it does not. -/
def waitPush (q : BoundedQueue T capacity) (value : T) :
    BoundedQueue T capacity × QueuePushResult :=
  let ready := q.closed || q.size < capacity
  if !ready then
    ({ q with stats := { q.stats with pushTimeouts := SizeT.increment q.stats.pushTimeouts } },
      .timeout)
  else if q.closed then (q, .closed)
  else (q.pushLocked value, .pushed)

def tryPop (q : BoundedQueue T capacity) : BoundedQueue T capacity × Option T :=
  if q.size = 0 then (q, none) else q.popLocked

/-- Without a time limit the wait ends only when its predicate holds. -/
def waitPop (q : BoundedQueue T capacity) : Option (BoundedQueue T capacity × Option T) :=
  if q.closed || q.size > 0 then
    some (if q.size = 0 then (q, none) else q.popLocked)
  else none

def waitPopFor (q : BoundedQueue T capacity) : BoundedQueue T capacity × Option T :=
  let ready := q.closed || q.size > 0
  if !ready || q.size = 0 then (q, none) else q.popLocked

def close (q : BoundedQueue T capacity) : BoundedQueue T capacity := { q with closed := true }

/- What any of the threads may do next. -/
inductive Op (T : Type) where
  | tryPush (value : T)
  | waitPush (value : T)
  | tryPop
  | waitPop
  | waitPopFor
  | close
  deriving DecidableEq, Repr

inductive Answer (T : Type) where
  | push (result : QueuePushResult)
  | pop (value : Option T)
  | done
  deriving DecidableEq, Repr

def perform (q : BoundedQueue T capacity) : Op T → Option (BoundedQueue T capacity × Answer T)
  | .tryPush value => some ((q.tryPush value).1, .push (q.tryPush value).2)
  | .waitPush value => some ((q.waitPush value).1, .push (q.waitPush value).2)
  | .tryPop => some (q.tryPop.1, .pop q.tryPop.2)
  | .waitPop => q.waitPop.map fun (next, value) => (next, .pop value)
  | .waitPopFor => some (q.waitPopFor.1, .pop q.waitPopFor.2)
  | .close => some (q.close, .done)

section Pushes

variable {q : BoundedQueue T capacity} (value : T)

theorem tryPush_closed (shut : q.closed = true) : q.tryPush value = (q, .closed) := if_pos shut

theorem tryPush_full (live : q.closed = false) (full : q.size = capacity) :
    q.tryPush value =
      ({ q with stats := { q.stats with rejectedFull := SizeT.increment q.stats.rejectedFull } },
        .full) := by
  simp only [tryPush, live, Bool.false_eq_true, if_false, if_pos full]

theorem tryPush_room (live : q.closed = false) (room : q.size ≠ capacity) :
    q.tryPush value = (q.pushLocked value, .pushed) := by
  simp only [tryPush, live, Bool.false_eq_true, if_false, if_neg room]

theorem waitPush_closed (shut : q.closed = true) : q.waitPush value = (q, .closed) := by
  simp only [waitPush, shut, Bool.true_or, Bool.not_true, Bool.false_eq_true, if_false, if_true]

theorem waitPush_full (live : q.closed = false) (full : ¬ q.size < capacity) :
    q.waitPush value =
      ({ q with stats := { q.stats with pushTimeouts := SizeT.increment q.stats.pushTimeouts } },
        .timeout) := by
  simp only [waitPush, live, full, decide_false, Bool.or_false, Bool.not_false, if_true]

theorem waitPush_room (live : q.closed = false) (room : q.size < capacity) :
    q.waitPush value = (q.pushLocked value, .pushed) := by
  simp only [waitPush, live, room, decide_true, Bool.or_true, Bool.not_true, Bool.false_eq_true,
    if_false]

theorem waitPush_frame : (q.waitPush value).1.closed = q.closed ∧
    (q.closed = true → (q.waitPush value).1 = q) := by
  cases shut : q.closed with
  | true =>
    rw [waitPush_closed value shut]
    exact ⟨shut, fun _ => rfl⟩
  | false =>
    refine ⟨?_, nofun⟩
    by_cases room : q.size < capacity
    · rw [waitPush_room value shut room]
      exact shut
    · rw [waitPush_full value shut room]
      exact shut

/-- Only a push that lands is counted as one. -/
theorem waitPush_stats : (q.waitPush value).1.stats.popped = q.stats.popped ∧
    (q.waitPush value).1.stats.pushed =
      if (q.waitPush value).2 = .pushed then SizeT.increment q.stats.pushed
      else q.stats.pushed := by
  cases shut : q.closed with
  | true =>
    rw [waitPush_closed value shut]
    exact ⟨rfl, rfl⟩
  | false =>
    by_cases room : q.size < capacity
    · rw [waitPush_room value shut room]
      exact ⟨rfl, rfl⟩
    · rw [waitPush_full value shut room]
      exact ⟨rfl, rfl⟩

end Pushes

theorem waitPop_closed {q q' : BoundedQueue T capacity} {value : Option T}
    (popped : q.waitPop = some (q', value)) : q'.closed = q.closed := by
  unfold waitPop at popped
  split at popped
  · split at popped
    · cases popped
      rfl
    · cases popped
      rfl
  · contradiction

theorem waitPop_stats {q q' : BoundedQueue T capacity} {value : Option T}
    (popped : q.waitPop = some (q', value)) (found : value.isSome) :
    q'.stats.pushed = q.stats.pushed ∧ q'.stats.popped = SizeT.increment q.stats.popped := by
  unfold waitPop at popped
  split at popped
  · split at popped
    · cases popped
      contradiction
    · cases popped
      exact ⟨rfl, rfl⟩
  · contradiction

theorem cell_write (q : BoundedQueue T capacity) (index : Nat) (value : Option T) (j : Nat)
    (bound : j < capacity) :
    ((q.slots.setIfInBounds index value)[j]?).join = if index = j then value else q.cell j := by
  rw [Vector.getElem?_setIfInBounds]
  split
  · rename_i same
    simp [same, bound]
  · rfl

end BoundedQueue

end EdgeSentinel
