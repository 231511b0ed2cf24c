import EdgeSentinel.Queue.Model

/-! The bounded queue with its two condition variables. A critical section is one
step and so is every notification, which comes after the mutex is released; a thread
that waits leaves the condition variable first and acquires the mutex again later. -/
namespace EdgeSentinel

inductive CondVar where
  | notEmpty
  | notFull
  deriving DecidableEq, Repr

/- What a thread waits for: room for its value, or a value. Only `wait_pop` waits
without a time limit. -/
inductive Wait (T : Type) where
  | push (value : T)
  | pop (timed : Bool)
  deriving DecidableEq, Repr

def Wait.condVar {T : Type} : Wait T → CondVar
  | .push _ => .notFull
  | .pop _ => .notEmpty

/-- Where a thread stands while it does not hold the mutex. -/
inductive ThreadStep (T : Type) where
  | idle
  | waiting (wait : Wait T)
  | woken (wait : Wait T)
  | notifying (var : CondVar)
  | closing (var : CondVar)
  deriving DecidableEq, Repr

/- Every wait may end early or at its time limit, and the environment says which
waiter a `notify_one` finds. -/
inductive ThreadLabel (T : Type) where
  | enter (thread : Nat) (op : BoundedQueue.Op T)
  | wake (thread : Nat)
  | reacquire (thread : Nat) (timedOut : Bool)
  | notifyOne (thread : Nat) (target : Option Nat)
  | notifyAll (thread : Nat)
  deriving DecidableEq, Repr

namespace BoundedQueue

variable {T : Type} {capacity : Nat}

/- The predicates that the waits are given. -/
def ready (q : BoundedQueue T capacity) : CondVar → Bool
  | .notEmpty => q.closed || q.size > 0
  | .notFull => q.closed || q.size < capacity

/- The end of `try_push` and `wait_push`. -/
def leavePush : BoundedQueue T capacity × QueuePushResult → BoundedQueue T capacity × ThreadStep T
  | (q, .pushed) => (q, .notifying .notEmpty)
  | (q, _) => (q, .idle)

/- The end of `try_pop`, `wait_pop` and `wait_pop_for`. -/
def leavePop (q : BoundedQueue T capacity) : BoundedQueue T capacity × ThreadStep T :=
  if q.size = 0 then (q, .idle) else (q.popLocked.1, .notifying .notFull)

/-- An operation up to its first release of the mutex. -/
def enter (q : BoundedQueue T capacity) : Op T → BoundedQueue T capacity × ThreadStep T
  | .tryPush value => leavePush (q.tryPush value)
  | .waitPush value =>
    if q.ready .notFull then leavePush (q.waitPush value) else (q, .waiting (.push value))
  | .tryPop => q.leavePop
  | .waitPop => if q.ready .notEmpty then q.leavePop else (q, .waiting (.pop false))
  | .waitPopFor => if q.ready .notEmpty then q.leavePop else (q, .waiting (.pop true))
  | .close => (q.close, .closing .notEmpty)

/-- A waiter back with the mutex: it looks at its predicate again, and one whose
time is up does not wait any longer. -/
def resume (q : BoundedQueue T capacity) (timedOut : Bool) :
    Wait T → Option (BoundedQueue T capacity × ThreadStep T)
  | .push value =>
    if q.ready .notFull || timedOut then some (leavePush (q.waitPush value))
    else some (q, .waiting (.push value))
  | .pop timed =>
    if q.ready .notEmpty then some q.leavePop
    else if timedOut then if timed then some (q, .idle) else none
    else some (q, .waiting (.pop timed))

end BoundedQueue

namespace ThreadStep

variable {T : Type}

def waitsOn (var : CondVar) : ThreadStep T → Bool
  | .waiting wait => wait.condVar = var
  | _ => false

def wokenFrom (var : CondVar) : ThreadStep T → Bool
  | .woken wait => wait.condVar = var
  | _ => false

def wake : ThreadStep T → ThreadStep T
  | .waiting wait => .woken wait
  | step => step

/- `notify_all`. -/
def wakeFrom (var : CondVar) (step : ThreadStep T) : ThreadStep T :=
  if step.waitsOn var then step.wake else step

end ThreadStep

/-- The queue and the threads that use it. -/
structure SharedQueue (T : Type) (capacity : Nat) where
  queue : BoundedQueue T capacity := {}
  threads : List (ThreadStep T)

namespace SharedQueue

variable {T : Type} {capacity : Nat}

def put (s : SharedQueue T capacity) (thread : Nat)
    (next : BoundedQueue T capacity × ThreadStep T) : SharedQueue T capacity :=
  { queue := next.1, threads := s.threads.set thread next.2 }

/-- One waiter leaves the condition variable, if there is one. -/
def notifyOne (s : SharedQueue T capacity) (thread : Nat) (var : CondVar) :
    Option Nat → Option (SharedQueue T capacity)
  | none =>
    if s.threads.any (·.waitsOn var) then none
    else some { s with threads := s.threads.set thread .idle }
  | some target =>
    s.threads[target]?.bind fun waiter =>
      if waiter.waitsOn var then
        some { s with threads := (s.threads.set target waiter.wake).set thread .idle }
      else none

/- `close` notifies the consumers first. -/
def notifyAll (s : SharedQueue T capacity) (thread : Nat) (var : CondVar) :
    SharedQueue T capacity :=
  let next := match var with
    | .notEmpty => .closing .notFull
    | .notFull => .idle
  { s with threads := (s.threads.map (·.wakeFrom var)).set thread next }

def step (s : SharedQueue T capacity) : ThreadLabel T → Option (SharedQueue T capacity × Unit)
  | .enter thread op =>
    match s.threads[thread]? with
    | some .idle => some (s.put thread (s.queue.enter op), ())
    | _ => none
  | .wake thread =>
    match s.threads[thread]? with
    | some (.waiting wait) => some (s.put thread (s.queue, .woken wait), ())
    | _ => none
  | .reacquire thread timedOut =>
    match s.threads[thread]? with
    | some (.woken wait) => (s.queue.resume timedOut wait).map fun next => (s.put thread next, ())
    | _ => none
  | .notifyOne thread target =>
    match s.threads[thread]? with
    | some (.notifying var) => (s.notifyOne thread var target).map (·, ())
    | _ => none
  | .notifyAll thread =>
    match s.threads[thread]? with
    | some (.closing var) => some (s.notifyAll thread var, ())
    | _ => none

/-- What one step can be. -/
inductive Steps (s : SharedQueue T capacity) : SharedQueue T capacity → Prop where
  | enters {thread : Nat} {op : BoundedQueue.Op T} (here : s.threads[thread]? = some .idle) :
      Steps s (s.put thread (s.queue.enter op))
  | wakes {thread : Nat} {wait : Wait T} (here : s.threads[thread]? = some (.waiting wait)) :
      Steps s (s.put thread (s.queue, .woken wait))
  | resumes {thread : Nat} {timedOut : Bool} {wait : Wait T}
      {next : BoundedQueue T capacity × ThreadStep T}
      (here : s.threads[thread]? = some (.woken wait))
      (resumed : s.queue.resume timedOut wait = some next) : Steps s (s.put thread next)
  | notifies {thread target : Nat} {var : CondVar} {wait : Wait T}
      (here : s.threads[thread]? = some (.notifying var))
      (there : s.threads[target]? = some (.waiting wait)) (waits : wait.condVar = var) :
      Steps s { s with threads := (s.threads.set target (.woken wait)).set thread .idle }
  | misses {thread : Nat} {var : CondVar} (here : s.threads[thread]? = some (.notifying var))
      (none : s.threads.any (·.waitsOn var) = false) :
      Steps s { s with threads := s.threads.set thread .idle }
  | notifiesAll {thread : Nat} {var : CondVar} (here : s.threads[thread]? = some (.closing var)) :
      Steps s (s.notifyAll thread var)

theorem step_cases {s s' : SharedQueue T capacity} {label : ThreadLabel T} {answer : Unit}
    (moved : s.step label = some (s', answer)) : Steps s s' := by
  cases label with
  | enter thread op =>
    simp only [step] at moved
    split at moved
    · rename_i here
      cases moved
      exact .enters here
    · contradiction
  | wake thread =>
    simp only [step] at moved
    split at moved
    · rename_i here
      cases moved
      exact .wakes here
    · contradiction
  | reacquire thread timedOut =>
    simp only [step] at moved
    split at moved
    · rename_i here
      obtain ⟨next, resumed, same⟩ := Option.map_eq_some_iff.mp moved
      cases same
      exact .resumes here resumed
    · contradiction
  | notifyOne thread target =>
    simp only [step] at moved
    split at moved
    · rename_i here
      obtain ⟨next, notified, same⟩ := Option.map_eq_some_iff.mp moved
      cases same
      cases target with
      | none =>
        simp only [notifyOne, Option.ite_none_left_eq_some] at notified
        obtain ⟨none, same⟩ := notified
        cases same
        exact .misses here (Bool.eq_false_iff.mpr none)
      | some target =>
        simp only [notifyOne, Option.bind_eq_some_iff, Option.ite_none_right_eq_some] at notified
        obtain ⟨waiter, there, waits, same⟩ := notified
        cases same
        cases waiter with
        | waiting wait => exact .notifies here there (of_decide_eq_true waits)
        | _ => contradiction
    · contradiction
  | notifyAll thread =>
    simp only [step] at moved
    split at moved
    · rename_i here
      cases moved
      exact .notifiesAll here
    · contradiction

end SharedQueue

end EdgeSentinel
