import EdgeSentinel.Fsm.Machine
import EdgeSentinel.Pool.Model
import EdgeSentinel.Queue.Model

/-! The event pipeline of the runtime: calls of `publish` on one side, the
control loop on the other, and the pool, the queue and the machine between them.
A step is one access to shared memory; what is done under a lock is one access. -/
namespace EdgeSentinel

inductive PublishResult where
  | published
  | notRunning
  | poolExhausted
  | queueFull
  | queueTimeout
  | queueClosed
  deriving DecidableEq, Repr

structure RuntimeMetrics where
  eventsPublished : Nat := 0
  eventsProcessed : Nat := 0
  eventsDropped : Nat := 0
  transitions : Nat := 0
  monitorTicks : Nat := 0
  lastEventLatencyNs : Nat := 0
  maxEventLatencyNs : Nat := 0
  deriving DecidableEq, Repr

namespace RuntimeMetrics

def recordPublished (m : RuntimeMetrics) : RuntimeMetrics :=
  { m with eventsPublished := SizeT.increment m.eventsPublished }

/- Only the control loop records latencies here, so nothing can come between the
load of the maximum and its exchange. -/
def recordProcessed (m : RuntimeMetrics) (latency : Nat) : RuntimeMetrics :=
  { m with
    eventsProcessed := SizeT.increment m.eventsProcessed
    lastEventLatencyNs := latency
    maxEventLatencyNs := if m.maxEventLatencyNs < latency then latency else m.maxEventLatencyNs }

def recordDropped (m : RuntimeMetrics) : RuntimeMetrics :=
  { m with eventsDropped := SizeT.increment m.eventsDropped }

def recordTransition (m : RuntimeMetrics) : RuntimeMetrics :=
  { m with transitions := SizeT.increment m.transitions }

def recordMonitorTick (m : RuntimeMetrics) : RuntimeMetrics :=
  { m with monitorTicks := SizeT.increment m.monitorTicks }

end RuntimeMetrics

structure PooledEvent where
  event : Event := {}
  createdAt : Nat := 0
  deriving DecidableEq, Repr

def kEventPoolCapacity : Nat := 256
def kEventQueueCapacity : Nat := 128

/- Where a call of `publish` stands; the handle is the one the call owns. -/
inductive PublishStep where
  | checking
  | allocating
  | pushing (handle : Handle)
  | releasing (handle : Handle) (result : PublishResult)
  | recording
  | dropping (result : PublishResult)
  | returned (result : PublishResult)
  deriving DecidableEq, Repr

structure PublishCall where
  event : Event
  step : PublishStep := .checking
  deriving DecidableEq, Repr

inductive ControlStep where
  | absent
  | waiting
  | popped (handle : Handle)
  | handled (handle : Handle) (latency : Nat) (transition : StateTransition)
  | processed (handle : Handle) (transition : StateTransition)
  | releasing (handle : Handle)
  | exited
  deriving DecidableEq, Repr

/- What `publish` and `control_loop` share, with the calls in progress. -/
structure Pipeline where
  pool : FixedObjectPool PooledEvent kEventPoolCapacity := .empty kEventPoolCapacity
  queue : BoundedQueue Handle kEventQueueCapacity := {}
  machine : MotorStateMachine
  metrics : RuntimeMetrics := {}
  acceptingEvents : Bool := false
  calls : List PublishCall := []
  control : ControlStep := .absent

/- What a step shows of the event it moved. -/
inductive Note where
  | silent
  | pushed (call : Nat) (event : Event)
  | handled (event : Event)
  deriving DecidableEq, Repr

namespace Pipeline

def call (p : Pipeline) (event : Event) : Pipeline :=
  { p with calls := p.calls ++ [{ event }] }

def move (p : Pipeline) (index : Nat) (call : PublishCall) (step : PublishStep) : Pipeline :=
  { p with calls := p.calls.set index { call with step } }

def hasReturned (p : Pipeline) (index : Nat) : Bool :=
  match p.calls[index]? with
  | some { step := .returned _, .. } => true
  | _ => false

section Threads

variable (layout : Layout)

/-- One call of `publish`. An unsuccessful `wait_push` destroys its argument
before the switch on its result. -/
def advance (p : Pipeline) (index now : Nat) (call : PublishCall) : Option (Pipeline × Note) :=
  match call.step with
  | .checking =>
    some (p.move index call (if p.acceptingEvents then .allocating else .returned .notRunning),
      .silent)
  | .allocating =>
    match p.pool.tryCreate layout (.ok ⟨call.event, now⟩ : Except Empty PooledEvent) with
    | (pool, .ok handle) =>
      some ({ p with pool }.move index call
        (if handle.object = 0 then .dropping .poolExhausted else .pushing handle), .silent)
  | .pushing handle =>
    match p.queue.waitPush handle with
    | (queue, .pushed) =>
      some ({ p with queue }.move index call .recording, .pushed index call.event)
    | (queue, .full) =>
      some ({ p with queue }.move index call (.releasing handle .queueFull), .silent)
    | (queue, .timeout) =>
      some ({ p with queue }.move index call (.releasing handle .queueTimeout), .silent)
    | (queue, .closed) =>
      some ({ p with queue }.move index call (.releasing handle .queueClosed), .silent)
  | .releasing handle result =>
    some ({ p with pool := p.pool.reset layout handle }.move index call (.dropping result), .silent)
  | .recording =>
    some ({ p with metrics := p.metrics.recordPublished }.move index call (.returned .published),
      .silent)
  | .dropping result =>
    some ({ p with metrics := p.metrics.recordDropped }.move index call (.returned result), .silent)
  | .returned _ => none

/- A handle whose object is gone would read an arbitrary event here. -/
def read (p : Pipeline) (handle : Handle) : PooledEvent :=
  (p.pool.deref layout handle).getD {}

def controlLoop (p : Pipeline) (now : Nat) : Option (Pipeline × Note) :=
  match p.control with
  | .absent => none
  | .waiting =>
    p.queue.waitPop.map fun
      | (queue, none) => ({ p with queue, control := .exited }, .silent)
      | (queue, some handle) => ({ p with queue, control := .popped handle }, .silent)
  | .popped handle =>
    let pooled := p.read layout handle
    let (machine, transition) := p.machine.handle pooled.event
    let latency := (now - pooled.createdAt) % 2 ^ 64
    some ({ p with machine, control := .handled handle latency transition }, .handled pooled.event)
  | .handled handle latency transition =>
    some ({ p with
      metrics := p.metrics.recordProcessed latency
      control := .processed handle transition }, .silent)
  | .processed handle transition =>
    some ({ p with
      metrics := if transition.changed then p.metrics.recordTransition else p.metrics
      control := .releasing handle }, .silent)
  | .releasing handle =>
    some ({ p with pool := p.pool.reset layout handle, control := .waiting }, .silent)
  | .exited => none

end Threads

/-- What one step of a call of `publish` can be. -/
inductive Advances (layout : Layout) (p : Pipeline) (index : Nat) (call : PublishCall) :
    Pipeline → Note → Prop where
  | admitted (stage : call.step = .checking) (accepting : p.acceptingEvents = true) :
      Advances layout p index call (p.move index call .allocating) .silent
  | turnedAway (stage : call.step = .checking) (refusing : p.acceptingEvents = false) :
      Advances layout p index call (p.move index call (.returned .notRunning)) .silent
  | allocated {now : Nat} {pool : FixedObjectPool PooledEvent kEventPoolCapacity} {handle : Handle}
      (stage : call.step = .allocating)
      (created : p.pool.tryCreate layout (.ok ⟨call.event, now⟩ : Except Empty PooledEvent) =
        (pool, .ok handle))
      (some : handle.object ≠ 0) :
      Advances layout p index call ({ p with pool }.move index call (.pushing handle)) .silent
  | exhausted {now : Nat} {pool : FixedObjectPool PooledEvent kEventPoolCapacity} {handle : Handle}
      (stage : call.step = .allocating)
      (created : p.pool.tryCreate layout (.ok ⟨call.event, now⟩ : Except Empty PooledEvent) =
        (pool, .ok handle))
      (none : handle.object = 0) :
      Advances layout p index call
        ({ p with pool }.move index call (.dropping .poolExhausted)) .silent
  | pushed {handle : Handle} {queue : BoundedQueue Handle kEventQueueCapacity}
      (stage : call.step = .pushing handle) (landed : p.queue.waitPush handle = (queue, .pushed)) :
      Advances layout p index call
        ({ p with queue }.move index call .recording) (.pushed index call.event)
  | refused {handle : Handle} {queue : BoundedQueue Handle kEventQueueCapacity}
      {answer : QueuePushResult} {result : PublishResult} (stage : call.step = .pushing handle)
      (missed : p.queue.waitPush handle = (queue, answer)) (other : answer ≠ .pushed)
      (failed : result ≠ .published) :
      Advances layout p index call
        ({ p with queue }.move index call (.releasing handle result)) .silent
  | released {handle : Handle} {result : PublishResult}
      (stage : call.step = .releasing handle result) :
      Advances layout p index call
        ({ p with pool := p.pool.reset layout handle }.move index call (.dropping result)) .silent
  | recorded (stage : call.step = .recording) :
      Advances layout p index call
        ({ p with metrics := p.metrics.recordPublished }.move index call (.returned .published))
        .silent
  | dropped {result : PublishResult} (stage : call.step = .dropping result) :
      Advances layout p index call
        ({ p with metrics := p.metrics.recordDropped }.move index call (.returned result)) .silent

theorem advance_cases {layout : Layout} {p q : Pipeline} {index now : Nat} {call : PublishCall}
    {note : Note} (moved : p.advance layout index now call = some (q, note)) :
    Advances layout p index call q note := by
  unfold advance at moved
  cases stage : call.step with
  | checking =>
    rw [stage] at moved
    cases accepting : p.acceptingEvents with
    | true =>
      rw [accepting] at moved
      cases moved
      exact .admitted stage accepting
    | false =>
      rw [accepting] at moved
      cases moved
      exact .turnedAway stage accepting
  | allocating =>
    simp only [stage] at moved
    split at moved
    rename_i pool handle created
    by_cases none : handle.object = 0
    · rw [if_pos none] at moved
      cases moved
      exact .exhausted stage created none
    · rw [if_neg none] at moved
      cases moved
      exact .allocated stage created none
  | pushing handle =>
    simp only [stage] at moved
    split at moved
    · rename_i queue landed
      cases moved
      exact .pushed stage landed
    all_goals
      rename_i queue missed
      cases moved
      exact .refused stage missed (by decide) (by decide)
  | releasing handle result =>
    rw [stage] at moved
    cases moved
    exact .released stage
  | recording =>
    rw [stage] at moved
    cases moved
    exact .recorded stage
  | dropping result =>
    rw [stage] at moved
    cases moved
    exact .dropped stage
  | returned result =>
    rw [stage] at moved
    contradiction

/- The ways through `publish`, and what it will report on each. -/
def leadsTo : PublishStep → PublishStep → Bool
  | .checking, .allocating => true
  | .checking, .returned .notRunning => true
  | .allocating, .pushing _ => true
  | .allocating, .dropping .poolExhausted => true
  | .pushing _, .recording => true
  | .pushing handle, .releasing handle' result =>
    handle = handle' && [.queueFull, .queueTimeout, .queueClosed].contains result
  | .releasing _ result, .dropping result' => result = result'
  | .recording, .returned .published => true
  | .dropping result, .returned result' => result = result'
  | _, _ => false

theorem advance_leadsTo {layout : Layout} {p q : Pipeline} {index now : Nat} {call : PublishCall}
    {note : Note} (moved : p.advance layout index now call = some (q, note)) :
    ∃ step, q.calls = p.calls.set index { call with step } ∧ leadsTo call.step step = true := by
  by_cases pushing : ∃ handle, call.step = .pushing handle
  · obtain ⟨handle, stage⟩ := pushing
    simp only [advance, stage] at moved
    split at moved
    all_goals
      cases moved
      exact ⟨_, rfl, by simp [stage, leadsTo]⟩
  · cases advance_cases moved with
    | pushed stage landed => exact absurd ⟨_, stage⟩ pushing
    | refused stage missed other failed => exact absurd ⟨_, stage⟩ pushing
    | _ stage => exact ⟨_, rfl, by simp [stage, leadsTo]⟩

/-- What one step of the control loop can be. -/
inductive Controls (layout : Layout) (p : Pipeline) : Pipeline → Note → Prop where
  | exits {queue : BoundedQueue Handle kEventQueueCapacity} (stage : p.control = .waiting)
      (popped : p.queue.waitPop = some (queue, none)) :
      Controls layout p { p with queue, control := .exited } .silent
  | pops {queue : BoundedQueue Handle kEventQueueCapacity} {handle : Handle}
      (stage : p.control = .waiting) (popped : p.queue.waitPop = some (queue, some handle)) :
      Controls layout p { p with queue, control := .popped handle } .silent
  | handles {handle : Handle} {latency : Nat} (stage : p.control = .popped handle) :
      Controls layout p
        { p with
          machine := (p.machine.handle (p.read layout handle).event).1
          control := .handled handle latency (p.machine.handle (p.read layout handle).event).2 }
        (.handled (p.read layout handle).event)
  | processes {handle : Handle} {latency : Nat} {transition : StateTransition}
      (stage : p.control = .handled handle latency transition) :
      Controls layout p
        { p with
          metrics := p.metrics.recordProcessed latency, control := .processed handle transition }
        .silent
  | records {handle : Handle} {transition : StateTransition}
      (stage : p.control = .processed handle transition) :
      Controls layout p
        { p with
          metrics := if transition.changed then p.metrics.recordTransition else p.metrics
          control := .releasing handle } .silent
  | releases {handle : Handle} (stage : p.control = .releasing handle) :
      Controls layout p
        { p with pool := p.pool.reset layout handle, control := .waiting } .silent

theorem controlLoop_cases {layout : Layout} {p q : Pipeline} {now : Nat} {note : Note}
    (moved : p.controlLoop layout now = some (q, note)) : Controls layout p q note := by
  unfold controlLoop at moved
  cases stage : p.control with
  | absent =>
    rw [stage] at moved
    contradiction
  | exited =>
    rw [stage] at moved
    contradiction
  | waiting =>
    simp only [stage, Option.map_eq_some_iff] at moved
    obtain ⟨⟨queue, value⟩, popped, same⟩ := moved
    cases value with
    | none =>
      cases same
      exact .exits stage popped
    | some handle =>
      cases same
      exact .pops stage popped
  | popped handle =>
    rw [stage] at moved
    cases moved
    exact .handles stage
  | handled handle latency transition =>
    rw [stage] at moved
    cases moved
    exact .processes stage
  | processed handle transition =>
    rw [stage] at moved
    cases moved
    exact .records stage
  | releasing handle =>
    rw [stage] at moved
    cases moved
    exact .releases stage

end Pipeline

end EdgeSentinel
