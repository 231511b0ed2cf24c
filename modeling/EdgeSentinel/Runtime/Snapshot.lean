import EdgeSentinel.Runtime.Tally

/-! `snapshot` loads its parts one by one while the other threads go on. The mutex of the
machine keeps the control loop from handling another event meanwhile, so the parts still
belong together, up to the one event that is on its way. -/
namespace EdgeSentinel

structure MachineSnapshot where
  state : MotorState := .booting
  lastSample : SensorSample := {}
  hasSample : Bool := false
  warningCount : Nat := 0
  criticalCount : Nat := 0
  recoveryCount : Nat := 0
  offlineCount : Nat := 0
  deriving DecidableEq, Repr

def MotorStateMachine.snapshot (m : MotorStateMachine) : MachineSnapshot where
  state := m.state
  lastSample := m.lastSample
  hasSample := m.hasSample
  warningCount := m.warningCount
  criticalCount := m.criticalCount
  recoveryCount := m.recoveryCount
  offlineCount := m.offlineCount

/- `queueSize` is the size that `stats` of the queue puts beside its counters. -/
structure RuntimeSnapshot where
  machine : MachineSnapshot := {}
  metrics : RuntimeMetrics := {}
  pool : PoolStats := {}
  queue : QueueStats := {}
  queueSize : Nat := 0
  deriving DecidableEq, Repr

/- What the call loads next; the mutex is held up to `returned`. -/
inductive SnapshotStep where
  | machine
  | published
  | processed
  | dropped
  | transitions
  | monitorTicks
  | lastLatency
  | maxLatency
  | pool
  | queue
  | returned
  deriving DecidableEq, Repr

def SnapshotStep.index : SnapshotStep → Nat
  | .machine => 0
  | .published => 1
  | .processed => 2
  | .dropped => 3
  | .transitions => 4
  | .monitorTicks => 5
  | .lastLatency => 6
  | .maxLatency => 7
  | .pool => 8
  | .queue => 9
  | .returned => 10

/- One call of `snapshot`, with what it has loaded. -/
structure SnapshotCall where
  step : SnapshotStep := .machine
  read : RuntimeSnapshot := {}
  deriving DecidableEq, Repr

namespace SnapshotCall

/- One of the counters of the metrics. -/
def store (c : SnapshotCall) (metrics : RuntimeMetrics) (step : SnapshotStep) : SnapshotCall where
  step := step
  read := { c.read with metrics }

def load (c : SnapshotCall) (r : EdgeRuntime) : Option SnapshotCall :=
  let m := c.read.metrics
  match c.step with
  | .machine => some ⟨.published, { c.read with machine := r.machine.snapshot }⟩
  | .published => some (c.store { m with eventsPublished := r.metrics.eventsPublished } .processed)
  | .processed => some (c.store { m with eventsProcessed := r.metrics.eventsProcessed } .dropped)
  | .dropped => some (c.store { m with eventsDropped := r.metrics.eventsDropped } .transitions)
  | .transitions => some (c.store { m with transitions := r.metrics.transitions } .monitorTicks)
  | .monitorTicks => some (c.store { m with monitorTicks := r.metrics.monitorTicks } .lastLatency)
  | .lastLatency =>
    some (c.store { m with lastEventLatencyNs := r.metrics.lastEventLatencyNs } .maxLatency)
  | .maxLatency =>
    some (c.store { m with maxEventLatencyNs := r.metrics.maxEventLatencyNs } .pool)
  | .pool => some ⟨.queue, { c.read with pool := r.pool.stats }⟩
  | .queue =>
    some ⟨.returned, { c.read with queue := r.queue.stats, queueSize := r.queue.size }⟩
  | .returned => none

end SnapshotCall

/- A step that takes the machine's mutex: `handle`, or the look at the state in `stop`. -/
def EdgeRuntime.locksMachine (r : EdgeRuntime) : Label → Bool
  | .control _ => r.control.hasPopped
  | .stop => r.stop.any (·.step = .awaitingState)
  | _ => false

structure Observed where
  runtime : EdgeRuntime
  call : SnapshotCall := {}

inductive SnapshotLabel where
  | thread (label : Label)
  | load
  deriving DecidableEq, Repr

/-- The threads of the runtime beside a call of `snapshot` that holds the mutex. -/
def Observed.step (layout : Layout) (o : Observed) : SnapshotLabel → Option (Observed × Note)
  | .thread label =>
    if o.call.step ≠ .returned ∧ o.runtime.locksMachine label then none
    else (o.runtime.step layout label).map fun (runtime, note) => ({ o with runtime }, note)
  | .load => (o.call.load o.runtime).map fun call => ({ o with call }, .silent)

/-- What has been loaded, against the machine and the counts of the events handled before
the mutex was taken and pushed so far. -/
structure SnapshotCall.Consistent (machine : MotorStateMachine) (handled changed pushed : Nat)
    (c : SnapshotCall) : Prop where
  machine : 1 ≤ c.step.index → c.read.machine = machine.snapshot
  published : 2 ≤ c.step.index → c.read.metrics.eventsPublished ≤ pushed
  processed : 3 ≤ c.step.index →
    c.read.metrics.eventsProcessed ≤ handled ∧ handled ≤ c.read.metrics.eventsProcessed + 1
  transitions : 5 ≤ c.step.index →
    c.read.metrics.transitions ≤ changed ∧ changed ≤ c.read.metrics.transitions + 1
  queue : 10 ≤ c.step.index →
    (handled ≤ c.read.queue.popped ∧ c.read.queue.popped ≤ handled + 1) ∧
    c.read.queue.pushed = c.read.queue.popped + c.read.queueSize ∧
    c.read.metrics.eventsPublished ≤ c.read.queue.pushed

/- What one moment of the runtime shows. -/
structure EdgeRuntime.Shows (machine : MotorStateMachine) (handled changed pushed : Nat)
    (r : EdgeRuntime) : Prop where
  machine : r.machine = machine
  published : r.metrics.eventsPublished ≤ pushed
  processed : r.metrics.eventsProcessed ≤ handled ∧ handled ≤ r.metrics.eventsProcessed + 1
  transitions : r.metrics.transitions ≤ changed ∧ changed ≤ r.metrics.transitions + 1
  popped : handled ≤ r.queue.stats.popped ∧ r.queue.stats.popped ≤ handled + 1
  size : r.queue.stats.pushed = r.queue.stats.popped + r.queue.size
  pushed : r.queue.stats.pushed = pushed

section Calls

variable {machine : MotorStateMachine} {handled changed pushed : Nat} {c c' : SnapshotCall}
  {r : EdgeRuntime}

theorem SnapshotCall.Consistent.later (h : c.Consistent machine handled changed pushed) {more : Nat}
    (grown : pushed ≤ more) : c.Consistent machine handled changed more :=
  ⟨h.machine, fun read => (h.published read).trans grown, h.processed, h.transitions, h.queue⟩

theorem SnapshotStep.early {n : Nat} {P : Prop} (s : SnapshotStep) (before : s.index < n) :
    n ≤ s.index → P := fun late => absurd before (Nat.not_lt.mpr late)

theorem SnapshotCall.Consistent.load (h : c.Consistent machine handled changed pushed)
    (now : r.Shows machine handled changed pushed) (moved : c.load r = some c') :
    c'.Consistent machine handled changed pushed := by
  unfold SnapshotCall.load at moved
  cases stage : c.step with
  | machine =>
    rw [stage] at moved
    cases moved
    exact ⟨fun _ => congrArg MotorStateMachine.snapshot now.machine,
      SnapshotStep.published.early (by decide), SnapshotStep.published.early (by decide),
      SnapshotStep.published.early (by decide), SnapshotStep.published.early (by decide)⟩
  | published =>
    rw [stage] at moved
    cases moved
    exact ⟨fun _ => h.machine (by rw [stage]; decide), fun _ => now.published,
      SnapshotStep.processed.early (by decide), SnapshotStep.processed.early (by decide),
      SnapshotStep.processed.early (by decide)⟩
  | processed =>
    rw [stage] at moved
    cases moved
    exact ⟨fun _ => h.machine (by rw [stage]; decide), fun _ => h.published (by rw [stage]; decide),
      fun _ => now.processed, SnapshotStep.dropped.early (by decide),
      SnapshotStep.dropped.early (by decide)⟩
  | dropped =>
    rw [stage] at moved
    cases moved
    exact ⟨fun _ => h.machine (by rw [stage]; decide), fun _ => h.published (by rw [stage]; decide),
      fun _ => h.processed (by rw [stage]; decide), SnapshotStep.transitions.early (by decide),
      SnapshotStep.transitions.early (by decide)⟩
  | transitions =>
    rw [stage] at moved
    cases moved
    exact ⟨fun _ => h.machine (by rw [stage]; decide), fun _ => h.published (by rw [stage]; decide),
      fun _ => h.processed (by rw [stage]; decide), fun _ => now.transitions,
      SnapshotStep.monitorTicks.early (by decide)⟩
  | queue =>
    have before := h.published (by rw [stage]; decide)
    rw [stage] at moved
    cases moved
    exact ⟨fun _ => h.machine (by rw [stage]; decide), fun _ => before,
      fun _ => h.processed (by rw [stage]; decide), fun _ => h.transitions (by rw [stage]; decide),
      fun _ => ⟨now.popped, now.size, now.pushed ▸ before⟩⟩
  | returned =>
    rw [stage] at moved
    contradiction
  | _ =>
    rw [stage] at moved
    cases moved
    exact ⟨fun _ => h.machine (by rw [stage]; decide), fun _ => h.published (by rw [stage]; decide),
      fun _ => h.processed (by rw [stage]; decide), fun _ => h.transitions (by rw [stage]; decide),
      SnapshotStep.early _ (of_decide_eq_true rfl)⟩

end Calls

theorem Pipeline.Advances.unhandled {layout : Layout} {p q : Pipeline} {index : Nat}
    {call : PublishCall} {note : Note} (moved : Pipeline.Advances layout p index call q note) :
    note.handledEvent = none := by
  cases moved <;> rfl

theorem Pipeline.Controls.unhandled {layout : Layout} {p q : Pipeline} {note : Note}
    (moved : Pipeline.Controls layout p q note) (idle : p.control.hasPopped = false) :
    note.handledEvent = none := by
  cases moved with
  | handles stage =>
    rw [stage] at idle
    contradiction
  | _ => rfl

section Runs

variable {layout : Layout} {protection : ProtectionConfig} {notes told : List Note}
  {o o' : Observed} {note : Note} {label : SnapshotLabel} {r r' : EdgeRuntime}

/-- Without the mutex of the machine no event is handled. -/
theorem EdgeRuntime.Sound.unlocked (h : r.Sound layout protection notes) {inner : Label}
    (free : r.locksMachine inner = false) (moved : r.step layout inner = some (r', note)) :
    note.handledEvent = none := by
  cases EdgeRuntime.step_acts h.staged moved with
  | advances here advanced => exact (Pipeline.advance_cases advanced).unhandled
  | controls controlled => exact controlled.unhandled free
  | aside other silent aside =>
    subst silent
    rfl

/-- One moment of a run in which the counters have not wrapped. -/
theorem EdgeRuntime.Sound.shows (h : r.Sound layout protection notes)
    (t : r.toPipeline.Tallied (.initial protection) notes)
    (small : (pushedEvents notes).length < 2 ^ 64) :
    r.Shows (Mealy.final MotorStateMachine.handle (.initial protection) (handledEvents notes))
      (handledEvents notes).length (changes (.initial protection) (handledEvents notes))
      (pushedEvents notes).length := by
  obtain ⟨backlog, inHand, carries⟩ := h.carries
  have balance := carries.balance
  have fewer : changes (.initial protection) (handledEvents notes) ≤
      (handledEvents notes).length := by
    unfold changes
    exact List.countP_le_length.trans (Nat.le_of_eq (Mealy.outputs_length _ _ _))
  have pushed := t.pushed.sum small
  have popped := t.popped.sum (by omega)
  have published := t.published.sum small
  have processed := t.processed.sum (by omega)
  have transitions := t.transitions.sum (by omega)
  have unhandled : r.control.unhandled ≤ 1 := by
    cases r.control <;> simp [ControlStep.unhandled]
  have uncounted : r.control.uncounted ≤ 1 := by
    cases r.control <;> simp [ControlStep.uncounted]
  have unrecorded : r.control.unrecorded ≤ 1 := by
    cases r.control with
    | handled handle latency transition => exact Bool.toNat_le _
    | processed handle transition => exact Bool.toNat_le _
    | _ => exact Nat.zero_le 1
  exact ⟨carries.machine, by omega, by omega, by omega, by omega, by omega, by omega⟩

/-- A call of `snapshot` that took the mutex when the runtime had come so far. -/
structure Observes (layout : Layout) (protection : ProtectionConfig) (notes told : List Note)
    (o : Observed) : Prop where
  sound : o.runtime.Sound layout protection (notes ++ told)
  tallied : o.runtime.toPipeline.Tallied (.initial protection) (notes ++ told)
  locked : o.call.step ≠ .returned → handledEvents told = []
  consistent : o.call.Consistent
    (Mealy.final MotorStateMachine.handle (.initial protection) (handledEvents notes))
    (handledEvents notes).length (changes (.initial protection) (handledEvents notes))
    (pushedEvents (notes ++ told)).length

theorem Observes.thread (h : Observes layout protection notes told o) {inner : Label}
    (free : ¬ (o.call.step ≠ .returned ∧ o.runtime.locksMachine inner = true))
    (moved : o.runtime.step layout inner = some (r', note)) :
    Observes layout protection notes (told ++ [note]) { o with runtime := r' } := by
  refine ⟨?_, ?_, ?_, ?_⟩
  · rw [← List.append_assoc]
    exact h.sound.step moved
  · rw [← List.append_assoc]
    exact h.sound.tallied h.tallied moved
  · intro reading
    have unlocked : o.runtime.locksMachine inner = false :=
      Bool.eq_false_iff.mpr fun locks => free ⟨reading, locks⟩
    rw [Pipeline.handledEvents_concat, h.locked reading, h.sound.unlocked unlocked moved]
    rfl
  · apply h.consistent.later
    rw [← List.append_assoc, Pipeline.pushedEvents_concat, List.length_append]
    exact Nat.le_add_right _ _

theorem Observes.load (h : Observes layout protection notes told o) {call : SnapshotCall}
    (small : (pushedEvents (notes ++ told)).length < 2 ^ 64)
    (moved : o.call.load o.runtime = some call) :
    Observes layout protection notes (told ++ [.silent]) { o with call } := by
  have reading : o.call.step ≠ .returned := by
    intro returned
    rw [SnapshotCall.load, returned] at moved
    contradiction
  have same : handledEvents (notes ++ told) = handledEvents notes := by
    rw [handledEvents, List.filterMap_append]
    exact (congrArg _ (h.locked reading)).trans (List.append_nil _)
  have now := h.sound.shows h.tallied small
  rw [same] at now
  obtain ⟨backlog, inHand, carries⟩ := h.sound.carries
  refine ⟨?_, ?_, ?_, ?_⟩
  · rw [← List.append_assoc]
    exact ⟨⟨backlog, inHand, carries.silent⟩, h.sound.recorded.silent, h.sound.staged⟩
  · rw [← List.append_assoc]
    exact h.tallied.silent
  · intro _
    rw [Pipeline.handledEvents_concat, h.locked reading]
    rfl
  · apply (h.consistent.load now moved).later
    rw [← List.append_assoc, Pipeline.pushedEvents_concat, List.length_append]
    exact Nat.le_add_right _ _

theorem Observes.step (h : Observes layout protection notes told o)
    (small : (pushedEvents (notes ++ told)).length < 2 ^ 64)
    (moved : o.step layout label = some (o', note)) :
    Observes layout protection notes (told ++ [note]) o' := by
  cases label with
  | thread inner =>
    unfold Observed.step at moved
    obtain ⟨free, moved⟩ := Option.ite_none_left_eq_some.mp moved
    obtain ⟨⟨r', _⟩, taken, same⟩ := Option.map_eq_some_iff.mp moved
    cases same
    exact h.thread free taken
  | load =>
    obtain ⟨call, taken, same⟩ := Option.map_eq_some_iff.mp moved
    cases same
    exact h.load small taken

theorem run_observes {more : List SnapshotLabel} {later : List Note}
    (h : Observes layout protection notes [] o)
    (future : Exec.run (Observed.step layout) o more = some (o', later))
    (small : (pushedEvents (notes ++ later)).length < 2 ^ 64) :
    Observes layout protection notes later o' := by
  refine Exec.run_induction
    (P := fun _ later o' => (pushedEvents (notes ++ later)).length < 2 ^ 64 →
      Observes layout protection notes later o') (fun _ => h) ?_ future small
  intro _ later t label u note before moved small
  rw [← List.append_assoc, Pipeline.pushedEvents_concat, List.length_append] at small
  have earlier : (pushedEvents (notes ++ later)).length < 2 ^ 64 := by omega
  exact (before earlier).step earlier moved

end Runs

/-- A snapshot is of one moment up to the event under way. Its machine has handled the
events before the mutex was taken, its counters of processed events and of transitions
are behind by at most one, the control loop has popped at most one more, and the queue's
counters have what the metrics count as published. -/
theorem snapshot_consistent (layout : Layout) (protection : ProtectionConfig) (hasSensor : Bool)
    (labels : List Label) (r : EdgeRuntime) (notes : List Note)
    (history : Exec.run (EdgeRuntime.step layout) (.initial protection hasSensor) labels =
      some (r, notes))
    (more : List SnapshotLabel) (o : Observed) (later : List Note)
    (future : Exec.run (Observed.step layout) { runtime := r } more = some (o, later))
    (returned : o.call.step = .returned)
    (small : (pushedEvents (notes ++ later)).length < 2 ^ 64) :
    o.call.read.machine =
        (Mealy.final MotorStateMachine.handle (.initial protection)
          (handledEvents notes)).snapshot ∧
      (o.call.read.metrics.eventsProcessed ≤ (handledEvents notes).length ∧
        (handledEvents notes).length ≤ o.call.read.metrics.eventsProcessed + 1) ∧
      (o.call.read.metrics.transitions ≤ changes (.initial protection) (handledEvents notes) ∧
        changes (.initial protection) (handledEvents notes) ≤
          o.call.read.metrics.transitions + 1) ∧
      ((handledEvents notes).length ≤ o.call.read.queue.popped ∧
        o.call.read.queue.popped ≤ (handledEvents notes).length + 1) ∧
      o.call.read.queue.pushed = o.call.read.queue.popped + o.call.read.queueSize ∧
      o.call.read.metrics.eventsPublished ≤ o.call.read.queue.pushed := by
  have start : Observes layout protection notes [] { runtime := r } := by
    refine ⟨?_, ?_, fun _ => rfl, ?_⟩
    · rw [List.append_nil]
      exact EdgeRuntime.run_sound history
    · rw [List.append_nil]
      exact EdgeRuntime.run_tallied history
    · have none : ∀ {n : Nat} {P : Prop}, 0 < n → n ≤ SnapshotStep.machine.index → P :=
        fun positive => SnapshotStep.machine.early positive
      exact ⟨none (by decide), none (by decide), none (by decide), none (by decide),
        none (by decide)⟩
  have consistent := (run_observes start future small).consistent
  obtain ⟨popped, size, published⟩ := consistent.queue (by rw [returned]; decide)
  exact ⟨consistent.machine (by rw [returned]; decide),
    consistent.processed (by rw [returned]; decide),
    consistent.transitions (by rw [returned]; decide), popped, size, published⟩

/- The control loop goes on between the loads, up to the next event in its hand. -/
def overtaken : List SnapshotLabel :=
  List.replicate 3 .load ++ List.replicate 4 (.thread (.control 0)) ++ List.replicate 7 .load

theorem snapshot_consistent_overtaken :
    ∃ r notes o later,
      Exec.run (EdgeRuntime.step EdgeRuntime.unitLayout) (.initial {} true)
        (EdgeRuntime.starting ++ List.replicate 2 (.control 0)) = some (r, notes) ∧
      Exec.run (Observed.step EdgeRuntime.unitLayout) { runtime := r } overtaken =
        some (o, later) ∧
      o.call.step = .returned ∧ (pushedEvents (notes ++ later)).length < 2 ^ 64 ∧
      (handledEvents notes).length ≤ o.call.read.metrics.eventsProcessed + 1 ∧
      o.call.read.queue.popped ≤ (handledEvents notes).length + 1 := by
  have outcome : (Exec.run (EdgeRuntime.step EdgeRuntime.unitLayout) (.initial {} true)
      (EdgeRuntime.starting ++ List.replicate 2 (.control 0))).any (fun reached =>
        (Exec.run (Observed.step EdgeRuntime.unitLayout) { runtime := reached.1 }
          overtaken).any (fun ended => ended.1.call.step = .returned ∧
            (pushedEvents (reached.2 ++ ended.2)).length < 2 ^ 64)) = true := by
    decide +kernel
  obtain ⟨⟨r, notes⟩, history, facts⟩ := (Option.any_eq_true _ _).mp outcome
  obtain ⟨⟨o, later⟩, future, facts⟩ := (Option.any_eq_true _ _).mp facts
  obtain ⟨returned, small⟩ := of_decide_eq_true facts
  obtain ⟨-, processed, -, popped, -⟩ := snapshot_consistent EdgeRuntime.unitLayout {} true _ r
    notes history overtaken o later future returned small
  exact ⟨r, notes, o, later, history, future, returned, small, processed.2, popped.2⟩

end EdgeSentinel
