import EdgeSentinel.Library.Ring
import EdgeSentinel.Queue.Model

/-! What the queue is for: a first-in first-out list of bounded length with a
closed flag. The ring of the source refines it operation by operation. -/
namespace EdgeSentinel

structure Fifo (T : Type) where
  items : List T := []
  closed : Bool := false

namespace Fifo

variable {T : Type} {capacity : Nat}

/-- A push is refused when the list is closed, and answered with `whenFull` when
there is no room. -/
def push (capacity : Nat) (f : Fifo T) (whenFull : QueuePushResult) (value : T) :
    Fifo T × QueuePushResult :=
  if f.closed then (f, .closed)
  else if f.items.length < capacity then ({ f with items := f.items ++ [value] }, .pushed)
  else (f, whenFull)

def pop (f : Fifo T) : Fifo T × Option T := ({ f with items := f.items.tail }, f.items.head?)

def perform (capacity : Nat) (f : Fifo T) :
    BoundedQueue.Op T → Option (Fifo T × BoundedQueue.Answer T)
  | .tryPush value => some ((f.push capacity .full value).1, .push (f.push capacity .full value).2)
  | .waitPush value =>
    some ((f.push capacity .timeout value).1, .push (f.push capacity .timeout value).2)
  | .tryPop => some (f.pop.1, .pop f.pop.2)
  | .waitPop => if f.closed || !f.items.isEmpty then some (f.pop.1, .pop f.pop.2) else none
  | .waitPopFor => some (f.pop.1, .pop f.pop.2)
  | .close => some ({ f with closed := true }, .done)

section Push

variable {f : Fifo T} (whenFull : QueuePushResult) (value : T)

theorem push_closed (shut : f.closed = true) : f.push capacity whenFull value = (f, .closed) :=
  if_pos shut

theorem push_full (live : f.closed = false) (full : ¬ f.items.length < capacity) :
    f.push capacity whenFull value = (f, whenFull) := by
  simp only [push, live, Bool.false_eq_true, if_false, if_neg full]

theorem push_room (live : f.closed = false) (room : f.items.length < capacity) :
    f.push capacity whenFull value = ({ f with items := f.items ++ [value] }, .pushed) := by
  simp only [push, live, Bool.false_eq_true, if_false, if_pos room]

end Push

end Fifo

namespace BoundedQueue

variable {T : Type} {capacity : Nat}

structure Represents (q : BoundedQueue T capacity) (f : Fifo T) : Prop where
  window : Ring.Window capacity q.cell q.head f.items
  size : q.size = f.items.length
  tail : q.tail = (q.head + q.size) % capacity
  closed : q.closed = f.closed

theorem represents_empty (positive : 0 < capacity) :
    Represents ({} : BoundedQueue T capacity) {} := by
  refine ⟨Ring.window_vacant positive ?_, rfl, ?_, rfl⟩
  · intro i bound
    simp [cell, bound]
  · exact (Nat.zero_mod capacity).symm

section Refinement

variable {q : BoundedQueue T capacity} {f : Fifo T}

theorem Represents.restat (h : Represents q f) (stats : QueueStats) :
    Represents { q with stats := stats } f :=
  ⟨h.window, h.size, h.tail, h.closed⟩

theorem Represents.pushLocked (h : Represents q f) (room : f.items.length < capacity) (value : T) :
    Represents (q.pushLocked value) { f with items := f.items ++ [value] } := by
  refine ⟨?_, ?_, ?_, h.closed⟩
  · apply h.window.push room value
    intro j bound
    rw [← h.size, ← h.tail]
    exact cell_write q q.tail (some value) j bound
  · simp [BoundedQueue.pushLocked, h.size]
  · simp only [BoundedQueue.pushLocked, h.tail, Nat.mod_add_mod, Nat.add_assoc]

theorem Represents.popLocked (h : Represents q f) {x : T} {rest : List T}
    (items : f.items = x :: rest) :
    q.popLocked.2 = some x ∧ Represents q.popLocked.1 { f with items := rest } := by
  have window := items ▸ h.window
  have size : q.size = rest.length + 1 := by rw [h.size, items, List.length_cons]
  refine ⟨window.cell_head, ?_, ?_, ?_, h.closed⟩
  · apply window.pop
    intro j bound
    exact cell_write q q.head none j bound
  · simp [BoundedQueue.popLocked, size]
  · simp only [BoundedQueue.popLocked, h.tail, size, Nat.add_sub_cancel, Nat.mod_add_mod,
      Nat.add_assoc, Nat.add_comm 1]

theorem Represents.tryPush (h : Represents q f) (value : T) :
    Represents (q.tryPush value).1 (f.push capacity .full value).1 ∧
      (q.tryPush value).2 = (f.push capacity .full value).2 := by
  have size := h.size
  have fits := h.window.fits
  cases shut : f.closed with
  | true =>
    rw [tryPush_closed value (h.closed.trans shut), Fifo.push_closed _ value shut]
    exact ⟨h, rfl⟩
  | false =>
    by_cases room : f.items.length < capacity
    · rw [tryPush_room value (h.closed.trans shut) (by omega), Fifo.push_room _ value shut room]
      exact ⟨h.pushLocked room value, rfl⟩
    · rw [tryPush_full value (h.closed.trans shut) (by omega), Fifo.push_full _ value shut room]
      exact ⟨h.restat _, rfl⟩

theorem Represents.waitPush (h : Represents q f) (value : T) :
    Represents (q.waitPush value).1 (f.push capacity .timeout value).1 ∧
      (q.waitPush value).2 = (f.push capacity .timeout value).2 := by
  have size := h.size
  cases shut : f.closed with
  | true =>
    rw [waitPush_closed value (h.closed.trans shut), Fifo.push_closed _ value shut]
    exact ⟨h, rfl⟩
  | false =>
    by_cases room : f.items.length < capacity
    · rw [waitPush_room value (h.closed.trans shut) (by omega), Fifo.push_room _ value shut room]
      exact ⟨h.pushLocked room value, rfl⟩
    · rw [waitPush_full value (h.closed.trans shut) (by omega), Fifo.push_full _ value shut room]
      exact ⟨h.restat _, rfl⟩

/-- A pop that is not kept waiting answers with the front of the list. -/
theorem Represents.pop (h : Represents q f) :
    Represents (if q.size = 0 then (q, none) else q.popLocked).1 f.pop.1 ∧
      (if q.size = 0 then (q, none) else q.popLocked).2 = f.pop.2 := by
  have size := h.size
  cases items : f.items with
  | nil =>
    have empty : q.size = 0 := by rw [size, items, List.length_nil]
    simp only [if_pos empty, Fifo.pop, items, List.tail_nil, List.head?_nil, and_true]
    exact ⟨items ▸ h.window, by rw [size, items], h.tail, h.closed⟩
  | cons x rest =>
    have some : ¬ q.size = 0 := by rw [size, items, List.length_cons]; omega
    have popped := h.popLocked items
    simp only [if_neg some, Fifo.pop, items, List.tail_cons, List.head?_cons]
    exact ⟨popped.2, popped.1⟩

theorem tryPop_eq (q : BoundedQueue T capacity) :
    q.tryPop = if q.size = 0 then (q, none) else q.popLocked := rfl

theorem waitPopFor_eq (q : BoundedQueue T capacity) :
    q.waitPopFor = if q.size = 0 then (q, none) else q.popLocked := by
  unfold waitPopFor
  by_cases empty : q.size = 0
  · simp [empty]
  · have some : 0 < q.size := Nat.pos_of_ne_zero empty
    simp [empty, some]

theorem Represents.waitPop_eq (h : Represents q f) :
    q.waitPop = if f.closed || !f.items.isEmpty then
      some (if q.size = 0 then (q, none) else q.popLocked) else none := by
  have nonempty : decide (q.size > 0) = !f.items.isEmpty := by
    rw [h.size]
    cases f.items <;> simp
  rw [waitPop, h.closed, nonempty]

/-- One operation: the ring and the list are kept waiting together, and
otherwise answer alike and stay related. -/
theorem Represents.perform (h : Represents q f) (op : Op T) :
    (q.perform op = none ∧ f.perform capacity op = none) ∨
    ∃ q' f' answer, q.perform op = some (q', answer) ∧
      f.perform capacity op = some (f', answer) ∧ Represents q' f' := by
  cases op with
  | tryPush value =>
    obtain ⟨next, same⟩ := h.tryPush value
    exact .inr ⟨_, _, _, rfl, by rw [same]; rfl, next⟩
  | waitPush value =>
    obtain ⟨next, same⟩ := h.waitPush value
    exact .inr ⟨_, _, _, rfl, by rw [same]; rfl, next⟩
  | tryPop =>
    obtain ⟨next, same⟩ := h.pop
    exact .inr ⟨_, _, _, rfl, by rw [tryPop_eq, same]; rfl, next⟩
  | waitPop =>
    simp only [BoundedQueue.perform, Fifo.perform, h.waitPop_eq]
    split
    · obtain ⟨next, same⟩ := h.pop
      exact .inr ⟨_, _, _, rfl, by rw [same], next⟩
    · exact .inl ⟨rfl, rfl⟩
  | waitPopFor =>
    obtain ⟨next, same⟩ := h.pop
    rw [← waitPopFor_eq] at next same
    exact .inr ⟨_, _, _, rfl, by rw [same]; rfl, next⟩
  | close => exact .inr ⟨_, _, _, rfl, rfl, h.window, h.size, h.tail, rfl⟩

end Refinement

/- The value that an operation put in, and the value that an answer brought out. -/
def pushedBy : Op T × Answer T → Option T
  | (.tryPush value, .push .pushed) => some value
  | (.waitPush value, .push .pushed) => some value
  | _ => none

def poppedBy : Answer T → Option T
  | .pop value => value
  | _ => none

def pushedValues (ops : List (Op T)) (answers : List (Answer T)) : List T :=
  (ops.zip answers).filterMap pushedBy

def poppedValues (answers : List (Answer T)) : List T := answers.filterMap poppedBy

variable (capacity) in
theorem push_conserves (f : Fifo T) (whenFull : QueuePushResult) (refused : whenFull ≠ .pushed)
    (value : T) :
    (f.push capacity whenFull value).1.items =
      f.items ++ (if (f.push capacity whenFull value).2 = .pushed then [value] else []) := by
  cases shut : f.closed with
  | true => simp [Fifo.push_closed whenFull value shut]
  | false =>
    by_cases room : f.items.length < capacity
    · simp [Fifo.push_room whenFull value shut room]
    · simp [Fifo.push_full whenFull value shut room, refused]

theorem pop_conserves (f : Fifo T) : f.pop.2.toList ++ f.pop.1.items = f.items := by
  unfold Fifo.pop
  cases f.items <;> rfl

/-- One operation moves values from the pushed to the stored to the popped, and
never past each other. -/
theorem perform_conserves {f f' : Fifo T} {op : Op T} {answer : Answer T}
    (h : f.perform capacity op = some (f', answer)) :
    f.items ++ (pushedBy (op, answer)).toList = (poppedBy answer).toList ++ f'.items := by
  cases op with
  | tryPush value =>
    cases h
    have kept := push_conserves capacity f .full (by decide) value
    rw [kept]
    cases (f.push capacity .full value).2 <;> rfl
  | waitPush value =>
    cases h
    have kept := push_conserves capacity f .timeout (by decide) value
    rw [kept]
    cases (f.push capacity .timeout value).2 <;> rfl
  | tryPop =>
    cases h
    exact (List.append_nil _).trans (pop_conserves f).symm
  | waitPop =>
    simp only [Fifo.perform] at h
    split at h
    · cases h
      exact (List.append_nil _).trans (pop_conserves f).symm
    · contradiction
  | waitPopFor =>
    cases h
    exact (List.append_nil _).trans (pop_conserves f).symm
  | close =>
    cases h
    exact List.append_nil _

theorem run_conserves {ops : List (Op T)} {answers : List (Answer T)} {f : Fifo T}
    (h : Exec.run (Fifo.perform capacity) {} ops = some (f, answers)) :
    ops.length = answers.length ∧
      poppedValues answers ++ f.items = pushedValues ops answers := by
  refine Exec.run_induction (P := fun ops answers f => ops.length = answers.length ∧
    poppedValues answers ++ f.items = pushedValues ops answers) ⟨rfl, rfl⟩ ?_ h
  rintro ops answers f op f' answer ⟨length, kept⟩ step
  have moved := perform_conserves step
  refine ⟨by simp [length], ?_⟩
  calc poppedValues (answers ++ [answer]) ++ f'.items
      = poppedValues answers ++ ((poppedBy answer).toList ++ f'.items) := by
        cases out : poppedBy answer <;> simp [poppedValues, List.filterMap_append, out]
    _ = pushedValues ops answers ++ (pushedBy (op, answer)).toList := by
        rw [← moved, ← List.append_assoc, kept]
    _ = pushedValues (ops ++ [op]) (answers ++ [answer]) := by
        rw [pushedValues, pushedValues, List.zip_append length, List.filterMap_append]
        cases into : pushedBy (op, answer) <;> simp [into]

/-- `close` is the only operation that touches the flag. -/
theorem perform_closed {f f' : Fifo T} {op : Op T} {answer : Answer T}
    (h : f.perform capacity op = some (f', answer)) :
    f'.closed = true ↔ f.closed = true ∨ (op matches .close) = true := by
  have pushKeeps : ∀ whenFull value, (f.push capacity whenFull value).1.closed = f.closed := by
    intro whenFull value
    unfold Fifo.push
    split
    · rfl
    · split <;> rfl
  cases op with
  | tryPush value => cases h; simp [pushKeeps]
  | waitPush value => cases h; simp [pushKeeps]
  | tryPop => cases h; simp [Fifo.pop]
  | waitPop =>
    simp only [Fifo.perform] at h
    split at h
    · cases h; simp [Fifo.pop]
    · contradiction
  | waitPopFor => cases h; simp [Fifo.pop]
  | close => cases h; simp

theorem run_closed {ops : List (Op T)} {answers : List (Answer T)} {f : Fifo T}
    (h : Exec.run (Fifo.perform capacity) {} ops = some (f, answers)) :
    f.closed = true ↔ .close ∈ ops := by
  refine Exec.run_induction (P := fun ops _ f => f.closed = true ↔ .close ∈ ops) (by simp) ?_ h
  intro ops answers f op f' answer closed step
  rw [perform_closed step, closed]
  cases op <;> simp

theorem Represents.pops {q : BoundedQueue T capacity} {f : Fifo T} (h : Represents q f) :
    q.tryPop.2 = f.items.head? ∧ q.waitPopFor.2 = f.items.head? ∧
      ∀ next value, q.waitPop = some (next, value) → value = f.items.head? := by
  have front := h.pop.2
  refine ⟨front, by rw [waitPopFor_eq]; exact front, ?_⟩
  intro next value waited
  rw [h.waitPop_eq] at waited
  split at waited
  · rw [Option.some.inj waited] at front
    exact front
  · contradiction

theorem Represents.empty_iff {q : BoundedQueue T capacity} {f : Fifo T} (h : Represents q f) :
    f.items.head? = none ↔ q.size = 0 := by
  rw [h.size, List.head?_eq_none_iff, List.length_eq_zero_iff]

/- The stored values, oldest first, for clients that do not care how. -/
def Stores (q : BoundedQueue T capacity) (items : List T) : Prop := q.Represents ⟨items, q.closed⟩

section Contents

variable {q q' : BoundedQueue T capacity} {items : List T} {value : T}

theorem stores_empty (positive : 0 < capacity) : ({} : BoundedQueue T capacity).Stores [] :=
  represents_empty positive

theorem Stores.close (h : q.Stores items) : q.close.Stores items :=
  ⟨h.window, h.size, h.tail, rfl⟩

theorem Stores.landed (h : q.Stores items) (landed : q.waitPush value = (q', .pushed)) :
    q.closed = false ∧ q'.closed = false ∧ items.length < capacity ∧
      q'.Stores (items ++ [value]) := by
  cases shut : q.closed with
  | true =>
    rw [waitPush_closed value shut] at landed
    cases landed
  | false =>
    by_cases room : q.size < capacity
    · rw [waitPush_room value shut room] at landed
      cases landed
      have fits : items.length < capacity := h.size ▸ room
      exact ⟨rfl, shut, fits, h.pushLocked fits value⟩
    · rw [waitPush_full value shut room] at landed
      cases landed

theorem Stores.missed (h : q.Stores items) {answer : QueuePushResult}
    (missed : q.waitPush value = (q', answer)) (other : answer ≠ .pushed) :
    q'.closed = q.closed ∧ q'.Stores items ∧ (q.closed = true ∨ q.size = capacity) := by
  cases shut : q.closed with
  | true =>
    rw [waitPush_closed value shut] at missed
    cases missed
    exact ⟨shut, h, .inl rfl⟩
  | false =>
    by_cases room : q.size < capacity
    · rw [waitPush_room value shut room] at missed
      cases missed
      contradiction
    · rw [waitPush_full value shut room] at missed
      cases missed
      have fits : q.size ≤ capacity := h.size ▸ h.window.fits
      exact ⟨shut, h.restat _, .inr (by omega)⟩

theorem Stores.waitPop_nil (h : q.Stores []) :
    q.waitPop = if q.closed then some (q, none) else none := by
  have empty : q.size = 0 := h.size
  rw [Represents.waitPop_eq h]
  simp [empty]

theorem Stores.waitPop_cons {rest : List T} (h : q.Stores (value :: rest)) :
    ∃ next, q.waitPop = some (next, some value) ∧ next.closed = q.closed ∧ next.Stores rest := by
  have some : q.size ≠ 0 := by rw [h.size]; simp
  obtain ⟨front, next⟩ := Represents.popLocked h rfl
  refine ⟨q.popLocked.1, ?_, rfl, next⟩
  rw [Represents.waitPop_eq h, ← front]
  simp [some]

/-- A pop comes back empty-handed only from a closed and empty queue. -/
theorem Stores.drained (h : q.Stores items) (popped : q.waitPop = some (q', none)) :
    q' = q ∧ q.closed = true ∧ items = [] := by
  cases items with
  | nil =>
    rw [h.waitPop_nil, Option.ite_none_right_eq_some] at popped
    obtain ⟨shut, same⟩ := popped
    cases same
    exact ⟨rfl, shut, rfl⟩
  | cons x rest =>
    obtain ⟨next, found, -⟩ := h.waitPop_cons
    cases found.symm.trans popped

theorem Stores.popped (h : q.Stores items) (popped : q.waitPop = some (q', some value)) :
    ∃ rest, items = value :: rest ∧ q'.closed = q.closed ∧ q'.Stores rest := by
  cases items with
  | nil =>
    rw [h.waitPop_nil, Option.ite_none_right_eq_some] at popped
    cases popped.2
  | cons x rest =>
    obtain ⟨next, found, closed, stored⟩ := h.waitPop_cons
    cases found.symm.trans popped
    exact ⟨rest, rfl, closed, stored⟩

end Contents

/-- Every interleaving of the queue operations, for every capacity and element
type: the history is one of the abstract list with the same answers, the ring
lays that list out, nothing is lost, repeated or overtaken, and a closed queue
refuses every push and hands out what it holds. -/
theorem queue_refines_fifo (capacity : Nat) (positive : 0 < capacity) (T : Type)
    (ops : List (Op T)) (q : BoundedQueue T capacity) (answers : List (Answer T))
    (history : Exec.run perform {} ops = some (q, answers)) :
    ∃ f : Fifo T,
      Exec.run (Fifo.perform capacity) {} ops = some (f, answers) ∧
      (f.items.length = q.size ∧ q.size ≤ capacity ∧
        q.tail = (q.head + q.size) % capacity ∧ f.closed = q.closed ∧
        (∀ i < q.size, q.cell ((q.head + i) % capacity) = f.items[i]?) ∧
        ∀ j < capacity, (q.cell j).isSome ↔ ∃ i < q.size, (q.head + i) % capacity = j) ∧
      (∀ op, (q.perform op).map Prod.snd = (f.perform capacity op).map Prod.snd) ∧
      poppedValues answers ++ f.items = pushedValues ops answers ∧
      (.close ∈ ops →
        (∀ value, q.tryPush value = (q, .closed) ∧ q.waitPush value = (q, .closed)) ∧
        q.waitPop.map Prod.snd = some f.items.head?) ∧
      (q.tryPop.2 = f.items.head? ∧ q.waitPopFor.2 = f.items.head? ∧
        (∀ next value, q.waitPop = some (next, value) → value = f.items.head?) ∧
        (f.items.head? = none ↔ q.size = 0)) := by
  obtain ⟨f, abstract, h⟩ := Exec.simulation (Fifo.perform capacity) (R := Represents)
    (by
      intro q f op q' answer related step
      obtain ⟨waiting, -⟩ | ⟨q'', f', answer', concrete, abstract, next⟩ := related.perform op
      · rw [waiting] at step
        contradiction
      · rw [concrete] at step
        cases step
        exact ⟨f', abstract, next⟩)
    (represents_empty positive) history
  obtain ⟨tried, timed, waited⟩ := h.pops
  refine ⟨f, abstract, ⟨h.size.symm, h.size ▸ h.window.fits, h.tail, h.closed.symm, ?_, ?_⟩, ?_,
    (run_conserves abstract).2, ?_, tried, timed, waited, h.empty_iff⟩
  · intro i bound
    exact h.window.layout i (Nat.lt_of_lt_of_le bound (h.size ▸ h.window.fits))
  · intro j bound
    rw [h.size]
    exact h.window.engaged_iff bound
  · intro op
    obtain ⟨waiting, alsoWaiting⟩ | ⟨q', f', answer, concrete, abstract, -⟩ := h.perform op
    · rw [waiting, alsoWaiting]
      rfl
    · rw [concrete, abstract]
      rfl
  · intro member
    have shut := (run_closed abstract).mpr member
    have closed := h.closed.trans shut
    refine ⟨fun value => ⟨tryPush_closed value closed, waitPush_closed value closed⟩, ?_⟩
    rw [h.waitPop_eq, shut]
    exact congrArg some h.pop.2

theorem queue_refines_fifo_wrapped :
    ∃ f : Fifo Nat, Exec.run (Fifo.perform 2) {}
      [.tryPush 7, .waitPush 8, .waitPush 9, .tryPop, .tryPush 5, .close, .tryPush 6] =
        some (f, [.push .pushed, .push .pushed, .push .timeout, .pop (some 7), .push .pushed, .done,
          .push .closed]) ∧ f.items.length = 2 := by
  obtain ⟨f, abstract, ⟨size, -⟩, -⟩ := queue_refines_fifo 2 (by decide) Nat
    [.tryPush 7, .waitPush 8, .waitPush 9, .tryPop, .tryPush 5, .close, .tryPush 6] _ _ rfl
  exact ⟨f, abstract, size⟩

end BoundedQueue

end EdgeSentinel
