import EdgeSentinel.Library.Counting
import EdgeSentinel.Library.Watermark
import EdgeSentinel.Queue.Fifo

/-! The statistics against the history of operations and answers. The ring is only needed
for one fact: a pop that finds the queue not empty comes back with a value. -/
namespace EdgeSentinel.BoundedQueue

variable {T : Type} {capacity : Nat}

/- The value that an operation would put in, and whether it would take one out. -/
def Op.pushes : Op T → Option T
  | .tryPush value | .waitPush value => some value
  | _ => none

def Op.pops : Op T → Bool
  | .tryPop | .waitPop | .waitPopFor => true
  | _ => false

/-- Everything that one operation can do to the statistics. -/
inductive Moved (q next : BoundedQueue T capacity) : Op T → Answer T → Prop where
  | put {op : Op T} {value : T} (push : op.pushes = some value) (room : q.size < capacity)
      (same : next = q.pushLocked value) : Moved q next op (.push .pushed)
  | full {value : T}
      (same : next =
        { q with stats := { q.stats with rejectedFull := SizeT.increment q.stats.rejectedFull } }) :
      Moved q next (.tryPush value) (.push .full)
  | timeout {value : T}
      (same : next =
        { q with stats := { q.stats with pushTimeouts := SizeT.increment q.stats.pushTimeouts } }) :
      Moved q next (.waitPush value) (.push .timeout)
  | refused {op : Op T} {value : T} (push : op.pushes = some value) (same : next = q) :
      Moved q next op (.push .closed)
  | got {op : Op T} {value : T} (pop : op.pops = true) (stored : 0 < q.size)
      (same : next = q.popLocked.1) : Moved q next op (.pop (some value))
  | nothing {op : Op T} (pop : op.pops = true) (same : next = q) : Moved q next op (.pop none)
  | close (same : next = q.close) : Moved q next .close .done

section Step

variable {q next : BoundedQueue T capacity} {f : Fifo T} {op : Op T} {answer : Answer T}

theorem tryPush_moved (fits : q.size ≤ capacity) (value : T) :
    Moved q (q.tryPush value).1 (.tryPush value) (.push (q.tryPush value).2) := by
  cases shut : q.closed with
  | true =>
    rw [tryPush_closed value shut]
    exact .refused rfl rfl
  | false =>
    by_cases full : q.size = capacity
    · rw [tryPush_full value shut full]
      exact .full rfl
    · rw [tryPush_room value shut full]
      exact .put rfl (by omega) rfl

theorem waitPush_moved (value : T) :
    Moved q (q.waitPush value).1 (.waitPush value) (.push (q.waitPush value).2) := by
  cases shut : q.closed with
  | true =>
    rw [waitPush_closed value shut]
    exact .refused rfl rfl
  | false =>
    by_cases room : q.size < capacity
    · rw [waitPush_room value shut room]
      exact .put rfl room rfl
    · rw [waitPush_full value shut room]
      exact .timeout rfl

/-- A pop that is not kept waiting. -/
theorem Represents.pop_moved (h : Represents q f) (pop : op.pops = true) :
    Moved q (if q.size = 0 then (q, none) else q.popLocked).1 op
      (.pop (if q.size = 0 then (q, none) else q.popLocked).2) := by
  split
  · exact .nothing pop rfl
  · rename_i some
    cases items : f.items with
    | nil => exact absurd (by rw [h.size, items, List.length_nil]) some
    | cons x rest =>
      rw [(h.popLocked items).1]
      exact .got pop (Nat.pos_of_ne_zero some) rfl

theorem Represents.moved (h : Represents q f) (step : q.perform op = some (next, answer)) :
    Moved q next op answer := by
  cases op with
  | tryPush value =>
    cases step
    exact tryPush_moved (h.size ▸ h.window.fits) value
  | waitPush value =>
    cases step
    exact waitPush_moved value
  | tryPop =>
    cases step
    exact h.pop_moved rfl
  | waitPop =>
    simp only [BoundedQueue.perform, h.waitPop_eq] at step
    split at step
    · cases step
      exact h.pop_moved rfl
    · contradiction
  | waitPopFor =>
    cases step
    rw [waitPopFor_eq]
    exact h.pop_moved rfl
  | close =>
    cases step
    exact .close rfl

end Step

/- What the answers say about the operations. -/
def landed : Op T × Answer T → Bool
  | (_, .push .pushed) => true
  | _ => false

def taken : Op T × Answer T → Bool
  | (_, .pop (some _)) => true
  | _ => false

def rejected : Op T × Answer T → Bool
  | (.tryPush _, .push .full) => true
  | _ => false

def timedOut : Op T × Answer T → Bool
  | (.waitPush _, .push .timeout) => true
  | _ => false

/-- The counters of a queue after the given operations. -/
structure Counted (q : BoundedQueue T capacity) (past : List (Op T × Answer T)) : Prop where
  balance : past.countP landed = q.size + past.countP taken
  pushed : q.stats.pushed = past.countP landed % 2 ^ 64
  popped : q.stats.popped = past.countP taken % 2 ^ 64
  rejectedFull : q.stats.rejectedFull = past.countP rejected % 2 ^ 64
  pushTimeouts : q.stats.pushTimeouts = past.countP timedOut % 2 ^ 64

section Counting

variable {q next : BoundedQueue T capacity} {op : Op T} {answer : Answer T}
  {past : List (Op T × Answer T)}

/-- Each counter moves with the answers that it counts, and the size with two of them. -/
theorem Moved.counters (moved : Moved q next op answer) :
    next.size + (taken (op, answer)).toNat = q.size + (landed (op, answer)).toNat ∧
    next.stats.pushed = (if landed (op, answer) then
      SizeT.increment q.stats.pushed else q.stats.pushed) ∧
    next.stats.popped = (if taken (op, answer) then
      SizeT.increment q.stats.popped else q.stats.popped) ∧
    next.stats.rejectedFull = (if rejected (op, answer) then
      SizeT.increment q.stats.rejectedFull else q.stats.rejectedFull) ∧
    next.stats.pushTimeouts = (if timedOut (op, answer) then
      SizeT.increment q.stats.pushTimeouts else q.stats.pushTimeouts) := by
  cases moved with
  | put push room same =>
    subst same
    cases op <;> exact ⟨rfl, rfl, rfl, rfl, rfl⟩
  | full same | timeout same | close same =>
    subst same
    exact ⟨rfl, rfl, rfl, rfl, rfl⟩
  | refused push same | nothing pop same =>
    subst same
    cases op <;> exact ⟨rfl, rfl, rfl, rfl, rfl⟩
  | got pop stored same =>
    subst same
    have size : q.popLocked.1.size + 1 = q.size := Nat.sub_add_cancel stored
    cases op <;> exact ⟨size, rfl, rfl, rfl, rfl⟩

theorem Counted.moved (h : Counted q past) (moved : Moved q next op answer) :
    Counted next (past ++ [(op, answer)]) := by
  obtain ⟨size, pushed, popped, rejectedFull, pushTimeouts⟩ := moved.counters
  refine ⟨?_, ?_, ?_, ?_, ?_⟩
  · have balance := h.balance
    rw [List.countP_concat, List.countP_concat]
    omega
  · rw [pushed]
    exact SizeT.increment_countP _ h.pushed _
  · rw [popped]
    exact SizeT.increment_countP _ h.popped _
  · rw [rejectedFull]
    exact SizeT.increment_countP _ h.rejectedFull _
  · rw [pushTimeouts]
    exact SizeT.increment_countP _ h.pushTimeouts _

/-- Only a push raises the size, and it raises the watermark with it. -/
theorem Moved.peak {level : List (Op T) → Nat} {ops : List (Op T)}
    (moved : Moved q next op answer) (peak : Watermark.Peak level ops q.stats.highWatermark)
    (before : level ops = q.size) (after : level (ops ++ [op]) = next.size) :
    Watermark.Peak level (ops ++ [op]) next.stats.highWatermark := by
  have reached := before ▸ peak.above ops (List.prefix_refl _)
  cases moved with
  | put push room same =>
    subst same
    exact peak.raise _ after
  | full same | timeout same | close same | refused push same | nothing pop same =>
    subst same
    exact peak.keep (after.trans_le reached)
  | got pop stored same =>
    subst same
    exact peak.keep ((after.trans_le (Nat.sub_le _ _)).trans reached)

theorem Moved.mark_le (moved : Moved q next op answer) (low : q.stats.highWatermark ≤ capacity) :
    next.stats.highWatermark ≤ capacity := by
  cases moved with
  | put push room same =>
    subst same
    simp only [pushLocked]
    split
    · exact room
    · exact low
  | full same | timeout same | close same | refused push same | nothing pop same
  | got pop stored same =>
    subst same
    exact low

end Counting

/- The size after the given operations. -/
def sizeAfter (capacity : Nat) (ops : List (Op T)) : Nat :=
  ((Exec.run perform ({} : BoundedQueue T capacity) ops).map fun result => result.1.size).getD 0

theorem run_counted (positive : 0 < capacity) {ops : List (Op T)} {q : BoundedQueue T capacity}
    {answers : List (Answer T)} (history : Exec.run perform {} ops = some (q, answers)) :
    (∃ f, Represents q f) ∧ Counted q (ops.zip answers) ∧
      Watermark.Peak (sizeAfter capacity) ops q.stats.highWatermark ∧
      q.stats.highWatermark ≤ capacity := by
  have all := Exec.past_induction (P := fun ops answers q =>
    ops.length = answers.length ∧ (∃ f, Represents q f) ∧ Counted q (ops.zip answers) ∧
      Watermark.Peak (sizeAfter capacity) ops q.stats.highWatermark ∧
      q.stats.highWatermark ≤ capacity) ?_ ?_ history
  · exact all.2
  · exact ⟨rfl, ⟨{}, represents_empty positive⟩, ⟨rfl, rfl, rfl, rfl, rfl⟩, Watermark.peak_nil _,
      Nat.zero_le _⟩
  · rintro ops answers q op next answer past ⟨length, ⟨f, here⟩, counted, peak, low⟩ step
    have moved := here.moved step
    have last : Exec.run perform q [op] = some (next, [answer]) :=
      Exec.run_cons.mpr ⟨next, answer, [], step, rfl, rfl⟩
    refine ⟨by simp [length], ?_, ?_, moved.peak peak ?_ ?_, moved.mark_le low⟩
    · obtain ⟨waiting, -⟩ | ⟨q', f', answer', concrete, -, there⟩ := here.perform op
      · rw [waiting] at step
        contradiction
      · rw [concrete] at step
        cases step
        exact ⟨f', there⟩
    · rw [List.zip_append length]
      exact counted.moved moved
    · simp [sizeAfter, past]
    · simp [sizeAfter, Exec.run_append past last]

/-- For every capacity that a `size_t` can hold and every interleaving of the operations. -/
theorem queue_statistics_exact (capacity : UInt64) (positive : 0 < capacity.toNat) (T : Type)
    (ops : List (Op T)) (q : BoundedQueue T capacity.toNat) (answers : List (Answer T))
    (history : Exec.run perform {} ops = some (q, answers)) :
    (SizeT.subtract q.stats.pushed q.stats.popped = q.size ∧
      (ops.zip answers).countP landed = q.size + (ops.zip answers).countP taken ∧
      q.stats.pushed = (ops.zip answers).countP landed % 2 ^ 64 ∧
      q.stats.popped = (ops.zip answers).countP taken % 2 ^ 64) ∧
    (Watermark.Peak (sizeAfter capacity.toNat) ops q.stats.highWatermark ∧
      q.stats.highWatermark ≤ capacity.toNat) ∧
    (q.stats.rejectedFull = (ops.zip answers).countP rejected % 2 ^ 64 ∧
      q.stats.pushTimeouts = (ops.zip answers).countP timedOut % 2 ^ 64) ∧
    (∀ op next answer, q.perform op = some (next, answer) →
      answer = .push .closed ∨ answer = .pop none → next = q) ∧
    (q.closed = true → q.size = capacity.toNat → ∀ value,
      q.tryPush value = (q, .closed) ∧ q.waitPush value = (q, .closed)) := by
  obtain ⟨⟨f, here⟩, counted, peak, low⟩ := run_counted positive history
  have difference : SizeT.subtract q.stats.pushed q.stats.popped = q.size := by
    have small := capacity.toNat_lt
    have fits : q.size ≤ capacity.toNat := here.size ▸ here.window.fits
    rw [counted.pushed, counted.popped]
    exact SizeT.subtract_mod (by omega) counted.balance
  refine ⟨⟨difference, counted.balance, counted.pushed, counted.popped⟩, ⟨peak, low⟩,
    ⟨counted.rejectedFull, counted.pushTimeouts⟩, ?_, ?_⟩
  · intro op next answer step refused
    cases here.moved step with
    | refused push same | nothing pop same => exact same
    | put push room same | full same | timeout same | got pop stored same | close same =>
      simp at refused
  · intro shut _ value
    exact ⟨tryPush_closed value shut, waitPush_closed value shut⟩

theorem queue_statistics_exact_closed :
    ∃ q : BoundedQueue Nat 1, q.stats.rejectedFull = 1 ∧ q.stats.pushTimeouts = 1 ∧
      q.stats.highWatermark ≤ 1 ∧ SizeT.subtract q.stats.pushed q.stats.popped = 1 := by
  obtain ⟨⟨difference, -⟩, ⟨-, low⟩, ⟨rejectedFull, pushTimeouts⟩, -⟩ :=
    queue_statistics_exact 1 (by decide) Nat
      [.tryPush 7, .tryPush 8, .waitPush 9, .close, .tryPush 5, .waitPush 6] _ _ rfl
  exact ⟨_, rejectedFull, pushTimeouts, low, difference⟩

end EdgeSentinel.BoundedQueue
