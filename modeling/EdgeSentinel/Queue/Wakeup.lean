import EdgeSentinel.Library.CondVar
import EdgeSentinel.Library.Counting
import EdgeSentinel.Queue.Waiters

/-! No wake-up is lost. As long as somebody sleeps on a condition variable of an open
queue, what the sleepers wait for is covered by the waiters already awake and the
notifications still to come; once the queue is closed, a `notify_all` is to come. -/
namespace EdgeSentinel

namespace ThreadStep

variable {T : Type}

def notifies (var : CondVar) : ThreadStep T → Bool
  | .notifying other => other = var
  | _ => false

/- A `close` that has still to notify the variable; it takes `not_full_` last. -/
def closes (var : CondVar) : ThreadStep T → Bool
  | .closing other => other = var || other = .notEmpty
  | _ => false

/- What a thread's place says of it as a waiter and as a notifier. -/
section Places

variable (var other : CondVar) (wait : Wait T)

@[simp] theorem idle_place : (idle : ThreadStep T).waitsOn var = false ∧
    (idle : ThreadStep T).wokenFrom var = false ∧ (idle : ThreadStep T).notifies var = false ∧
    (idle : ThreadStep T).closes var = false := ⟨rfl, rfl, rfl, rfl⟩

@[simp] theorem waiting_place : (waiting wait).waitsOn var = decide (wait.condVar = var) ∧
    (waiting wait).wokenFrom var = false ∧ (waiting wait).notifies var = false ∧
    (waiting wait).closes var = false := ⟨rfl, rfl, rfl, rfl⟩

@[simp] theorem woken_place : (woken wait).waitsOn var = false ∧
    (woken wait).wokenFrom var = decide (wait.condVar = var) ∧ (woken wait).notifies var = false ∧
    (woken wait).closes var = false := ⟨rfl, rfl, rfl, rfl⟩

@[simp] theorem notifying_place : (notifying other : ThreadStep T).waitsOn var = false ∧
    (notifying other : ThreadStep T).wokenFrom var = false ∧
    (notifying other : ThreadStep T).notifies var = decide (other = var) ∧
    (notifying other : ThreadStep T).closes var = false := ⟨rfl, rfl, rfl, rfl⟩

@[simp] theorem closing_place : (closing other : ThreadStep T).waitsOn var = false ∧
    (closing other : ThreadStep T).wokenFrom var = false ∧
    (closing other : ThreadStep T).notifies var = false ∧
    (closing other : ThreadStep T).closes var =
      (decide (other = var) || decide (other = .notEmpty)) := ⟨rfl, rfl, rfl, rfl⟩

end Places

end ThreadStep

namespace BoundedQueue

variable {T : Type} {capacity : Nat}

/- How many waiters could go on: the values to pop or the room to push. -/
def available (q : BoundedQueue T capacity) : CondVar → Nat
  | .notEmpty => q.size
  | .notFull => capacity - q.size

/-- What a critical section can lead to, for a thread that enters an operation or
comes back from a wait. -/
inductive Outcome (q : BoundedQueue T capacity) (origin : ThreadStep T) :
    BoundedQueue T capacity × ThreadStep T → Prop where
  | returns {next : BoundedQueue T capacity} (size : next.size = q.size)
      (closed : next.closed = q.closed)
      (done : ∀ var, origin.wokenFrom var = true → q.closed = true ∨ q.available var = 0) :
      Outcome q origin (next, .idle)
  | pushes {next : BoundedQueue T capacity} (size : next.size = q.size + 1)
      (live : q.closed = false) (closed : next.closed = false)
      (producer : origin.wokenFrom .notEmpty = false) :
      Outcome q origin (next, .notifying .notEmpty)
  | pops {next : BoundedQueue T capacity} (size : q.size = next.size + 1)
      (closed : next.closed = q.closed) (consumer : origin.wokenFrom .notFull = false) :
      Outcome q origin (next, .notifying .notFull)
  | sleeps {wait : Wait T} (asleep : q.ready wait.condVar = false)
      (same : origin = .idle ∨ origin = .woken wait) : Outcome q origin (q, .waiting wait)
  | closes (entered : origin = .idle) : Outcome q origin (q.close, .closing .notEmpty)

section Outcomes

variable (q : BoundedQueue T capacity) {origin : ThreadStep T}

theorem leavePush_tryPush (value : T) : Outcome q .idle (leavePush (q.tryPush value)) := by
  cases shut : q.closed with
  | true =>
    rw [tryPush_closed value shut]
    exact .returns rfl rfl nofun
  | false =>
    by_cases full : q.size = capacity
    · rw [tryPush_full value shut full]
      exact .returns rfl rfl nofun
    · rw [tryPush_room value shut full]
      exact .pushes rfl shut shut rfl

theorem leavePush_waitPush (value : T) (producer : origin.wokenFrom .notEmpty = false) :
    Outcome q origin (leavePush (q.waitPush value)) := by
  cases shut : q.closed with
  | true =>
    rw [waitPush_closed value shut]
    exact .returns rfl rfl fun _ _ => .inl shut
  | false =>
    by_cases room : q.size < capacity
    · rw [waitPush_room value shut room]
      exact .pushes rfl shut shut producer
    · rw [waitPush_full value shut room]
      refine .returns rfl rfl ?_
      intro var woken
      cases var with
      | notEmpty =>
        rw [producer] at woken
        contradiction
      | notFull => exact .inr (by simp only [available]; omega)

theorem leavePop_outcome (consumer : origin.wokenFrom .notFull = false) :
    Outcome q origin q.leavePop := by
  unfold leavePop
  split
  · rename_i empty
    refine .returns rfl rfl ?_
    intro var woken
    cases var with
    | notEmpty => exact .inr empty
    | notFull =>
      rw [consumer] at woken
      contradiction
  · rename_i some
    refine .pops ?_ rfl consumer
    simp only [popLocked]
    omega

theorem enter_outcome (op : Op T) : Outcome q .idle (q.enter op) := by
  cases op with
  | tryPush value => exact q.leavePush_tryPush value
  | waitPush value =>
    rw [enter]
    split
    · exact q.leavePush_waitPush value rfl
    · rename_i asleep
      exact .sleeps (Bool.eq_false_iff.mpr asleep) (.inl rfl)
  | tryPop => exact q.leavePop_outcome rfl
  | waitPop =>
    rw [enter]
    split
    · exact q.leavePop_outcome rfl
    · rename_i asleep
      exact .sleeps (Bool.eq_false_iff.mpr asleep) (.inl rfl)
  | waitPopFor =>
    rw [enter]
    split
    · exact q.leavePop_outcome rfl
    · rename_i asleep
      exact .sleeps (Bool.eq_false_iff.mpr asleep) (.inl rfl)
  | close => exact .closes rfl

theorem resume_outcome {timedOut : Bool} {wait : Wait T}
    {next : BoundedQueue T capacity × ThreadStep T} (resumed : q.resume timedOut wait = some next) :
    Outcome q (.woken wait) next := by
  cases wait with
  | push value =>
    rw [resume] at resumed
    split at resumed
    · cases resumed
      exact q.leavePush_waitPush value rfl
    · rename_i asleep
      cases resumed
      simp only [Bool.or_eq_true, not_or] at asleep
      exact .sleeps (Bool.eq_false_iff.mpr asleep.1) (.inr rfl)
  | pop timed =>
    rw [resume] at resumed
    split at resumed
    · cases resumed
      exact q.leavePop_outcome rfl
    · rename_i asleep
      split at resumed
      · split at resumed
        · cases resumed
          refine .returns rfl rfl ?_
          intro var woken
          cases var with
          | notEmpty =>
            refine .inr ?_
            simp only [ready, Bool.or_eq_true, decide_eq_true_eq, not_or] at asleep
            simp only [available]
            omega
          | notFull => contradiction
        · contradiction
      · cases resumed
        exact .sleeps (Bool.eq_false_iff.mpr asleep) (.inr rfl)

end Outcomes

end BoundedQueue

namespace SharedQueue

variable {T : Type} {capacity : Nat}

/-- Nobody sleeps for good: the account of one of the condition variables. -/
def Alert (s : SharedQueue T capacity) (var : CondVar) : Prop :=
  Wakeups.Covered (s.queue.available var) (s.threads.countP (·.waitsOn var))
    (s.threads.countP (·.wokenFrom var)) (s.threads.countP (·.notifies var))
    (s.threads.countP (·.closes var)) s.queue.closed

section Steps

variable {s : SharedQueue T capacity} {var : CondVar} {thread : Nat} {origin : ThreadStep T}

theorem available_of_asleep {q : BoundedQueue T capacity} (asleep : q.ready var = false) :
    q.available var = 0 ∧ q.closed = false := by
  cases var with
  | notEmpty =>
    simp only [BoundedQueue.ready, Bool.or_eq_false_iff, decide_eq_false_iff_not] at asleep
    exact ⟨by simp only [BoundedQueue.available]; omega, asleep.1⟩
  | notFull =>
    simp only [BoundedQueue.ready, Bool.or_eq_false_iff, decide_eq_false_iff_not] at asleep
    exact ⟨by simp only [BoundedQueue.available]; omega, asleep.1⟩

theorem available_size {q q' : BoundedQueue T capacity} (var : CondVar) (size : q'.size = q.size) :
    q'.available var = q.available var := by
  cases var <;> simp only [BoundedQueue.available, size]

/- How a thread that is awake counts before and after its critical section. -/
theorem put_counts (var : CondVar) (here : s.threads[thread]? = some origin)
    (awake : origin = .idle ∨ ∃ wait, origin = .woken wait)
    (next : BoundedQueue T capacity × ThreadStep T) :
    (s.threads.set thread next.2).countP (·.waitsOn var) =
        s.threads.countP (·.waitsOn var) + (next.2.waitsOn var).toNat ∧
      (s.threads.set thread next.2).countP (·.wokenFrom var) + (origin.wokenFrom var).toNat =
        s.threads.countP (·.wokenFrom var) + (next.2.wokenFrom var).toNat ∧
      (s.threads.set thread next.2).countP (·.notifies var) =
        s.threads.countP (·.notifies var) + (next.2.notifies var).toNat ∧
      (s.threads.set thread next.2).countP (·.closes var) =
        s.threads.countP (·.closes var) + (next.2.closes var).toNat := by
  have waits := List.countP_set_add (fun t : ThreadStep T => t.waitsOn var) here next.2
  have woken := List.countP_set_add (fun t : ThreadStep T => t.wokenFrom var) here next.2
  have notifies := List.countP_set_add (fun t : ThreadStep T => t.notifies var) here next.2
  have closes := List.countP_set_add (fun t : ThreadStep T => t.closes var) here next.2
  have plain : origin.waitsOn var = false ∧ origin.notifies var = false ∧
      origin.closes var = false := by
    obtain rfl | ⟨wait, rfl⟩ := awake <;> simp
  simp only [plain, Bool.toNat_false, Nat.add_zero] at waits notifies closes
  exact ⟨waits, woken, notifies, closes⟩

theorem Alert.outcome (h : Alert s var) (here : s.threads[thread]? = some origin)
    (awake : origin = .idle ∨ ∃ wait, origin = .woken wait)
    {next : BoundedQueue T capacity × ThreadStep T} (outcome : s.queue.Outcome origin next) :
    Alert (s.put thread next) var := by
  obtain ⟨waits, woken, notifies, closes⟩ := put_counts var here awake next
  unfold Alert at h
  unfold Alert put
  cases outcome with
  | @returns q size closed done =>
    simp only [ThreadStep.idle_place, Bool.toNat_false, Nat.add_zero] at waits woken notifies closes
    rw [waits, notifies, closes, closed, available_size var size]
    apply h.leave woken
    intro live
    cases share : origin.wokenFrom var with
    | false => exact .inl (Nat.le_refl _)
    | true =>
      rcases done var share with shut | none
      · rw [live] at shut
        contradiction
      · exact .inr none
  | @pushes q size live closed producer =>
    simp only [ThreadStep.notifying_place, Bool.toNat_false, Nat.add_zero]
      at waits woken notifies closes
    rw [live] at h
    rw [waits, notifies, closes, closed]
    cases var with
    | notEmpty =>
      simp only [producer, Bool.toNat_false, Nat.add_zero] at woken
      rw [woken]
      exact h.grant (Nat.le_of_eq size)
    | notFull =>
      have small := Bool.toNat_le (origin.wokenFrom .notFull)
      apply h.leave woken
      intro _
      simp only [BoundedQueue.available, size]
      omega
  | @pops q size closed consumer =>
    simp only [ThreadStep.notifying_place, Bool.toNat_false, Nat.add_zero]
      at waits woken notifies closes
    rw [waits, notifies, closes, closed]
    cases var with
    | notEmpty =>
      have small := Bool.toNat_le (origin.wokenFrom .notEmpty)
      apply h.leave woken
      intro _
      simp only [BoundedQueue.available, size]
      omega
    | notFull =>
      simp only [consumer, Bool.toNat_false, Nat.add_zero] at woken
      rw [woken]
      apply h.grant
      simp only [BoundedQueue.available]
      omega
  | @sleeps wait asleep same =>
    simp only [ThreadStep.waiting_place, Bool.toNat_false, Nat.add_zero]
      at waits woken notifies closes
    rw [waits, notifies, closes]
    by_cases own : wait.condVar = var
    · subst own
      obtain ⟨none, live⟩ := available_of_asleep asleep
      rw [live]
      exact .toSleep none
    · have away : origin.wokenFrom var = false := by
        obtain rfl | rfl := same
        · rfl
        · exact decide_eq_false own
      simp only [away, own, decide_false, Bool.toNat_false, Nat.add_zero] at woken ⊢
      rw [woken]
      exact h
  | closes entered =>
    simp only [ThreadStep.closing_place, decide_true, Bool.or_true, Bool.toNat_true] at closes
    rw [closes]
    exact .toClose (Nat.succ_pos _)

/-- A thread that moves without leaving anything behind for the variable. -/
theorem Alert.unconcerned (h : Alert s var) (here : s.threads[thread]? = some origin)
    {next : ThreadStep T} (waits : next.waitsOn var = origin.waitsOn var)
    (woken : next.wokenFrom var = origin.wokenFrom var)
    (notifies : next.notifies var = origin.notifies var)
    (closes : next.closes var = origin.closes var) :
    Alert { s with threads := s.threads.set thread next } var := by
  have same : ∀ f : ThreadStep T → Bool, f next = f origin →
      (s.threads.set thread next).countP f = s.threads.countP f := by
    intro f unchanged
    have count := List.countP_set_add f here next
    rw [unchanged] at count
    omega
  unfold Alert
  rw [same _ waits, same _ woken, same _ notifies, same _ closes]
  exact h

theorem Alert.wake (h : Alert s var) {wait : Wait T}
    (here : s.threads[thread]? = some (.waiting wait)) :
    Alert (s.put thread (s.queue, .woken wait)) var := by
  by_cases own : wait.condVar = var
  · have waits := List.countP_set_add (fun t : ThreadStep T => t.waitsOn var) here (.woken wait)
    have woken := List.countP_set_add (fun t : ThreadStep T => t.wokenFrom var) here (.woken wait)
    have notifies := List.countP_set_add (fun t : ThreadStep T => t.notifies var) here (.woken wait)
    have closes := List.countP_set_add (fun t : ThreadStep T => t.closes var) here (.woken wait)
    simp only [ThreadStep.waiting_place, ThreadStep.woken_place, own, decide_true,
      Bool.toNat_true, Bool.toNat_false, Nat.add_zero] at waits woken notifies closes
    unfold Alert put
    rw [notifies, closes]
    exact Wakeups.Covered.wake h waits woken
  · apply h.unconcerned here <;> simp [own]

/-- `notify_one` with a waiter to wake. -/
theorem Alert.notify (h : Alert s var) {other : CondVar} {wait : Wait T} {target : Nat}
    (here : s.threads[thread]? = some (.notifying other))
    (there : s.threads[target]? = some (.waiting wait)) (waits : wait.condVar = other) :
    Alert { s with threads := (s.threads.set target (.woken wait)).set thread .idle } var := by
  have still : (s.threads.set target (.woken wait))[thread]? = some (.notifying other) := by
    rw [List.getElem?_set_ne, here]
    rintro rfl
    cases here.symm.trans there
  by_cases own : other = var
  · subst own
    have first := fun f : ThreadStep T → Bool => List.countP_set_add f there (.woken wait)
    have second := fun f : ThreadStep T → Bool => List.countP_set_add f still .idle
    have asleep := first (·.waitsOn other)
    have asleep' := second (·.waitsOn other)
    have awake := first (·.wokenFrom other)
    have awake' := second (·.wokenFrom other)
    have pending := first (·.notifies other)
    have pending' := second (·.notifies other)
    have closing := first (·.closes other)
    have closing' := second (·.closes other)
    simp only [ThreadStep.waiting_place, ThreadStep.woken_place, ThreadStep.notifying_place,
      ThreadStep.idle_place, waits, decide_true, Bool.toNat_true, Bool.toNat_false,
      Nat.add_zero] at asleep asleep' awake awake' pending pending' closing closing'
    unfold Alert
    dsimp only
    rw [closing', closing]
    exact Wakeups.Covered.notify h (by omega) (by omega) (by omega)
  · have woken : Alert { s with threads := s.threads.set target (.woken wait) } var := by
      apply h.unconcerned there <;> simp [waits, own]
    apply woken.unconcerned still <;> simp [own]

/-- `notify_one` without one. -/
theorem Alert.miss (h : Alert s var) {other : CondVar}
    (here : s.threads[thread]? = some (.notifying other))
    (none : s.threads.any (·.waitsOn other) = false) :
    Alert { s with threads := s.threads.set thread .idle } var := by
  by_cases own : other = var
  · subst own
    have waits := List.countP_set_add (fun t : ThreadStep T => t.waitsOn other) here .idle
    have asleep : s.threads.countP (·.waitsOn other) = 0 := by
      rw [List.countP_eq_zero]
      simpa using none
    simp only [ThreadStep.notifying_place, ThreadStep.idle_place, Bool.toNat_false, Nat.add_zero,
      asleep] at waits
    unfold Alert
    rw [waits]
    exact .vacant
  · apply h.unconcerned here <;> simp [own]

theorem wakeFrom_place {other : CondVar} (apart : other ≠ var) (t : ThreadStep T) :
    (t.wakeFrom other).waitsOn var = t.waitsOn var ∧
      (t.wakeFrom other).wokenFrom var = t.wokenFrom var := by
  cases t with
  | waiting wait =>
    by_cases waits : wait.condVar = other <;>
      simp [ThreadStep.wakeFrom, ThreadStep.wake, waits, apart]
  | _ => exact ⟨rfl, rfl⟩

theorem wakeFrom_own (t : ThreadStep T) : (t.wakeFrom var).waitsOn var = false := by
  cases t with
  | waiting wait =>
    by_cases waits : wait.condVar = var <;> simp [ThreadStep.wakeFrom, ThreadStep.wake, waits]
  | _ => rfl

theorem wakeFrom_roles (other : CondVar) (t : ThreadStep T) :
    (t.wakeFrom other).notifies var = t.notifies var ∧
      (t.wakeFrom other).closes var = t.closes var := by
  cases t with
  | waiting wait =>
    by_cases waits : wait.condVar = other <;> simp [ThreadStep.wakeFrom, ThreadStep.wake, waits]
  | _ => exact ⟨rfl, rfl⟩

/-- A step of `close` behind its critical section. -/
theorem Alert.notifyAll (h : Alert s var) {other : CondVar}
    (here : s.threads[thread]? = some (.closing other)) : Alert (s.notifyAll thread other) var := by
  have still : (s.threads.map (·.wakeFrom other))[thread]? = some (.closing other) := by
    rw [List.getElem?_map, here]
    rfl
  by_cases own : other = var
  · subst own
    have none : ∀ next : ThreadStep T, next.waitsOn other = false →
        ((s.threads.map (·.wakeFrom other)).set thread next).countP (·.waitsOn other) = 0 := by
      intro next away
      have count := List.countP_set_add (fun t : ThreadStep T => t.waitsOn other) still next
      have asleep : (s.threads.map (·.wakeFrom other)).countP (·.waitsOn other) = 0 := by
        simp [List.countP_map, Function.comp_def, wakeFrom_own]
      simpa [away, asleep] using count
    unfold Alert SharedQueue.notifyAll
    dsimp only
    rw [none _ (by cases other <;> rfl)]
    exact .vacant
  · have woken : Alert { s with threads := s.threads.map (·.wakeFrom other) } var := by
      unfold Alert
      simp only [List.countP_map, Function.comp_def, wakeFrom_place own, wakeFrom_roles]
      exact h
    cases other with
    | notEmpty =>
      have last : CondVar.notFull = var := by
        cases var with
        | notEmpty => exact absurd rfl own
        | notFull => rfl
      apply woken.unconcerned still <;> simp [last]
    | notFull => apply woken.unconcerned still <;> simp [own]

theorem Alert.step {s' : SharedQueue T capacity} (h : Alert s var) (moved : Steps s s') :
    Alert s' var := by
  cases moved with
  | enters here => exact h.outcome here (.inl rfl) (s.queue.enter_outcome _)
  | wakes here => exact h.wake here
  | resumes here resumed => exact h.outcome here (.inr ⟨_, rfl⟩) (s.queue.resume_outcome resumed)
  | notifies here there waits => exact h.notify here there waits
  | misses here none => exact h.miss here none
  | notifiesAll here => exact h.notifyAll here

end Steps

def idle (threads : Nat) : SharedQueue T capacity :=
  { threads := List.replicate threads .idle }

theorem alert_idle (threads : Nat) (var : CondVar) :
    Alert (idle threads : SharedQueue T capacity) var := by
  have none : (List.replicate threads (.idle : ThreadStep T)).countP (·.waitsOn var) = 0 := by
    simp
  unfold Alert idle
  dsimp only
  rw [none]
  exact .vacant

/-- A critical section is one of the queue's operations, or changes nothing. -/
def Performed (q q' : BoundedQueue T capacity) : Prop :=
  q' = q ∨ ∃ op answer, q.perform op = some (q', answer)

theorem leavePush_fst (result : BoundedQueue T capacity × QueuePushResult) :
    (BoundedQueue.leavePush result).1 = result.1 := by
  obtain ⟨q, answer⟩ := result
  cases answer <;> rfl

theorem performed_waitPush (q : BoundedQueue T capacity) (value : T) :
    Performed q (BoundedQueue.leavePush (q.waitPush value)).1 := by
  rw [leavePush_fst]
  exact .inr ⟨.waitPush value, _, rfl⟩

theorem performed_leavePop (q : BoundedQueue T capacity) : Performed q q.leavePop.1 := by
  have popped : q.leavePop.1 = q.tryPop.1 := by
    unfold BoundedQueue.leavePop BoundedQueue.tryPop
    split <;> rfl
  rw [popped]
  exact .inr ⟨.tryPop, _, rfl⟩

theorem performed_enter (q : BoundedQueue T capacity) (op : BoundedQueue.Op T) :
    Performed q (q.enter op).1 := by
  cases op with
  | tryPush value =>
    rw [BoundedQueue.enter, leavePush_fst]
    exact .inr ⟨.tryPush value, _, rfl⟩
  | waitPush value =>
    rw [BoundedQueue.enter]
    split
    · exact performed_waitPush q value
    · exact .inl rfl
  | tryPop => exact performed_leavePop q
  | waitPop =>
    rw [BoundedQueue.enter]
    split
    · exact performed_leavePop q
    · exact .inl rfl
  | waitPopFor =>
    rw [BoundedQueue.enter]
    split
    · exact performed_leavePop q
    · exact .inl rfl
  | close => exact .inr ⟨.close, _, rfl⟩

theorem performed_resume {q : BoundedQueue T capacity} {timedOut : Bool} {wait : Wait T}
    {next : BoundedQueue T capacity × ThreadStep T} (resumed : q.resume timedOut wait = some next) :
    Performed q next.1 := by
  cases wait with
  | push value =>
    rw [BoundedQueue.resume] at resumed
    split at resumed
    · cases resumed
      exact performed_waitPush q value
    · cases resumed
      exact .inl rfl
  | pop timed =>
    rw [BoundedQueue.resume] at resumed
    split at resumed
    · cases resumed
      exact performed_leavePop q
    · split at resumed
      · obtain ⟨-, same⟩ := Option.ite_none_right_eq_some.mp resumed
        cases same
        exact .inl rfl
      · cases resumed
        exact .inl rfl

theorem Steps.performed {s s' : SharedQueue T capacity} (moved : Steps s s') :
    Performed s.queue s'.queue := by
  cases moved with
  | enters here => exact performed_enter s.queue _
  | resumes here resumed => exact performed_resume resumed
  | _ => exact .inl rfl

/-- Whatever the threads do, the queue has been through a history of whole
operations, so what holds of those holds with waiters too. -/
theorem run_performed {threads : Nat} {labels : List (ThreadLabel T)}
    {s : SharedQueue T capacity} {answers : List Unit}
    (history : Exec.run step (idle threads) labels = some (s, answers)) :
    ∃ ops results, Exec.run BoundedQueue.perform {} ops = some (s.queue, results) := by
  refine Exec.run_induction
    (P := fun _ _ (s : SharedQueue T capacity) =>
      ∃ ops results, Exec.run BoundedQueue.perform {} ops = some (s.queue, results))
    ⟨[], [], rfl⟩ ?_ history
  rintro _ _ t label u note ⟨ops, results, past⟩ moved
  rcases (step_cases moved).performed with same | ⟨op, answer, next⟩
  · exact ⟨ops, results, by rw [same]; exact past⟩
  · have last : Exec.run BoundedQueue.perform t.queue [op] = some (u.queue, [answer]) :=
      Exec.run_cons.mpr ⟨u.queue, answer, [], next, rfl, rfl⟩
    exact ⟨ops ++ [op], results ++ [answer], Exec.run_append past last⟩

/-- No lost wake-up, for every capacity, every number of threads and every
interleaving of operations, early or timely ends of waits and notifications: a thread
asleep on a variable whose predicate holds is never left without a notification to
come or another waiter on its way to the mutex. -/
theorem no_lost_wakeup (T : Type) (capacity threads : Nat) (labels : List (ThreadLabel T))
    (s : SharedQueue T capacity) (answers : List Unit)
    (history : Exec.run step (idle threads) labels = some (s, answers)) (var : CondVar) :
    ¬ ((∃ t ∈ s.threads, t.waitsOn var = true) ∧ s.queue.ready var = true ∧
      (∀ t ∈ s.threads, t.notifies var = false ∧ t.closes var = false) ∧
      ∀ t ∈ s.threads, t.wokenFrom var = false) := by
  rintro ⟨asleep, ready, quiet, alone⟩
  have alert := Exec.run_induction (P := fun _ _ s => Alert s var) (alert_idle threads var)
    (fun _ _ _ _ _ _ alert moved => alert.step (step_cases moved)) history
  have sleepers : 0 < s.threads.countP (·.waitsOn var) := List.countP_pos_iff.mpr asleep
  have able : s.queue.closed = true ∨ 0 < s.queue.available var := by
    cases var with
    | notEmpty =>
      simp only [BoundedQueue.ready, Bool.or_eq_true, decide_eq_true_eq] at ready
      exact ready
    | notFull =>
      simp only [BoundedQueue.ready, Bool.or_eq_true, decide_eq_true_eq] at ready
      exact ready.imp_right Nat.sub_pos_of_lt
  have zero : ∀ f : ThreadStep T → Bool, (∀ t ∈ s.threads, f t = false) →
      s.threads.countP f = 0 := by
    intro f never
    rw [List.countP_eq_zero]
    simpa using never
  have remembered := Wakeups.Covered.remembered alert sleepers able
  rw [zero _ alone, zero _ fun t member => (quiet t member).1,
    zero _ fun t member => (quiet t member).2] at remembered
  omega

/- The consumer sleeps, the producer has pushed and not yet notified it. -/
theorem no_lost_wakeup_pending :
    ∃ s : SharedQueue Nat 2, Exec.run step (idle 2)
        [.enter 0 .waitPop, .enter 1 (.tryPush 7)] = some (s, [(), ()]) ∧
      (∃ t ∈ s.threads, t.waitsOn .notEmpty = true) ∧ s.queue.ready .notEmpty = true ∧
      ¬ ((∃ t ∈ s.threads, t.waitsOn .notEmpty = true) ∧ s.queue.ready .notEmpty = true ∧
        (∀ t ∈ s.threads, t.notifies .notEmpty = false ∧ t.closes .notEmpty = false) ∧
        ∀ t ∈ s.threads, t.wokenFrom .notEmpty = false) :=
  ⟨_, rfl, ⟨.waiting (.pop false), List.mem_cons_self, rfl⟩, rfl,
    no_lost_wakeup Nat 2 2 [.enter 0 .waitPop, .enter 1 (.tryPush 7)] _ [(), ()] rfl .notEmpty⟩

end SharedQueue

end EdgeSentinel
