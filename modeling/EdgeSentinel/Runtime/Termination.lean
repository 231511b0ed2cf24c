import EdgeSentinel.Runtime.Startup
import EdgeSentinel.Runtime.Threads

/-! The end of `stop`. Once both stop tokens are set every step of every thread uses up
some of the work that is left, so `stop` returns after a bounded number of steps, and
until it does some thread of the runtime can take one. -/
namespace EdgeSentinel

/- What is left of a call, with what its event will cost the control loop. -/
def PublishStep.work : PublishStep → Nat
  | .checking => 10
  | .allocating => 9
  | .pushing _ => 8
  | .releasing _ _ => 2
  | .recording | .dropping _ => 1
  | .returned _ => 0

theorem PublishStep.work_le (s : PublishStep) : s.work ≤ 10 * (!s.isReturned).toNat := by
  cases s <;> simp [work, isReturned]

def ControlStep.work : ControlStep → Nat
  | .absent | .exited => 0
  | .waiting => 1
  | .popped _ => 5
  | .handled _ _ _ => 4
  | .processed _ _ => 3
  | .releasing _ => 2

def SensorStep.work : SensorStep → Nat
  | .absent | .exited => 0
  | .checking | .sleeping => 1
  | .awaiting _ => 2

def MonitorStep.work : MonitorStep → Nat
  | .sleeping => 1
  | _ => 0

def StopStep.work : StopStep → Nat
  | .publishing => 10
  | .refusing => 9
  | .awaitingState => 8
  | .stoppingSensor => 7
  | .stoppingMonitor => 6
  | .joiningSensor => 5
  | .joiningMonitor => 4
  | .closing => 3
  | .joiningControl => 2
  | .lowering => 1
  | .returned => 0

def Label.isPublish : Label → Bool
  | .publish _ => true
  | _ => false

namespace Pipeline

def work (p : Pipeline) : Nat :=
  (p.calls.map fun call => call.step.work).sum + 5 * p.queue.size + p.control.work

section Work

variable {layout : Layout} {start : MotorStateMachine} {notes : List Note} {p q : Pipeline}
  {backlog : List (Handle × Event)} {inHand : Option (Handle × Event)} {note : Note}
  {index : Nat} {call : PublishCall}

/- The work of a call that has moved, with a queue that has not shrunk. -/
theorem work_move (here : p.calls[index]? = some call) {step : PublishStep}
    (calls : q.calls = p.calls.set index { call with step }) (control : q.control = p.control)
    (less : step.work + 5 * q.queue.size < call.step.work + 5 * p.queue.size) :
    q.work < p.work := by
  have sum := List.sum_map_set_add (fun call : PublishCall => call.step.work) here
    { call with step }
  rw [work, work, calls, control]
  dsimp only at sum
  omega

theorem Advances.work (moved : Advances layout p index call q note)
    (h : Carries layout start notes p backlog inHand) (here : p.calls[index]? = some call) :
    q.work < p.work := by
  cases moved with
  | @pushed handle queue stage landed =>
    have size : queue.size = p.queue.size + 1 := h.pushed_size landed
    refine work_move here rfl rfl ?_
    simp only [move, stage, size, PublishStep.work]
    omega
  | @refused handle queue answer result stage missed other failed =>
    have size : queue.size = p.queue.size := h.refused_size missed other
    refine work_move here rfl rfl ?_
    simp only [move, stage, size, PublishStep.work]
    omega
  | _ stage =>
    refine work_move here rfl rfl ?_
    simp [move, stage, PublishStep.work]

theorem Controls.work (moved : Controls layout p q note)
    (h : Carries layout start notes p backlog inHand) : q.work < p.work := by
  cases moved with
  | exits stage popped =>
    obtain ⟨rfl, -, -⟩ := h.queue.drained popped
    simp [Pipeline.work, stage, ControlStep.work]
  | @pops queue handle stage popped =>
    have size : p.queue.size = queue.size + 1 := h.popped_size popped
    simp only [Pipeline.work, stage, size, ControlStep.work]
    omega
  | _ stage => simp [Pipeline.work, stage, ControlStep.work]

theorem sum_work_le (calls : List PublishCall) :
    (calls.map fun call => call.step.work).sum ≤
      10 * calls.countP fun call => !call.step.isReturned := by
  induction calls with
  | nil => simp
  | cons call rest ih =>
    have one := call.step.work_le
    rw [List.map_cons, List.sum_cons, List.countP_cons]
    cases returned : call.step.isReturned with
    | true =>
      simp only [returned, Bool.not_true, Bool.toNat_false] at one
      simp only [Bool.not_true, Bool.false_eq_true, if_false]
      omega
    | false =>
      simp only [returned, Bool.not_false, Bool.toNat_true] at one
      simp only [Bool.not_false, if_true]
      omega

theorem work_le (h : Carries layout start notes p backlog inHand) :
    p.work ≤ 10 * (p.calls.countP fun call => !call.step.isReturned) + 645 := by
  have queued : p.queue.size ≤ kEventQueueCapacity := by
    have fits := h.queue.window.fits
    rwa [List.length_map, ← h.size] at fits
  have hand : p.control.work ≤ 5 := by
    cases p.control <;> simp [ControlStep.work]
  have calls := sum_work_le p.calls
  have capacity : kEventQueueCapacity = 128 := rfl
  rw [Pipeline.work]
  omega

end Work

end Pipeline

namespace EdgeRuntime

def work (r : EdgeRuntime) : Nat :=
  r.toPipeline.work + r.sensor.work + r.monitor.work + r.stop.elim 0 fun c => c.step.work

/- A thread of the runtime moves, or a call of `publish` that one of them waits for. -/
def Own (r : EdgeRuntime) : Label → Prop
  | .start | .publish _ => False
  | .advance index _ => r.sensor = .awaiting index ∨ r.stop.map StopCall.call = some index
  | _ => True

/- The call of `stop` is under way. -/
def stopping (r : EdgeRuntime) : Bool := r.stop.any fun c => c.step ≠ .returned

section Steps

variable {layout : Layout} {protection : ProtectionConfig} {notes : List Note}
  {r r' : EdgeRuntime} {note : Note}

theorem Stops.work {c : StopCall} (moved : Stops r c r') (current : r.stop = some c)
    (under : c.step ≠ .returned) : r'.work < r.work := by
  cases moved with
  | again stage => exact absurd stage under
  | _ stage =>
    simp [EdgeRuntime.work, Pipeline.work, BoundedQueue.close, current, stage, StopStep.work]

theorem Senses.work {sample : SensorSample} (moved : Senses r sample r')
    (stopped : r.sensorStop = true) : r'.work < r.work := by
  cases moved with
  | exits stage _ =>
    rcases stage with stage | stage <;> simp [EdgeRuntime.work, stage, SensorStep.work]
  | published stage returned => simp [EdgeRuntime.work, stage, SensorStep.work]
  | publishes stage present running =>
    rw [stopped] at running
    contradiction
  | skips stage missing running =>
    rw [stopped] at running
    contradiction
  | wakes stage running =>
    rw [stopped] at running
    contradiction

theorem Monitors.work (moved : Monitors r r') (stopped : r.monitorStop = true) :
    r'.work < r.work := by
  cases moved with
  | exits stage _ => simp [EdgeRuntime.work, stage, MonitorStep.work]
  | ticks stage running =>
    rw [stopped] at running
    contradiction

theorem Sound.work_le (h : Sound layout protection notes r) :
    r.work ≤ 10 * r.inFlight + 658 := by
  obtain ⟨backlog, inHand, carries⟩ := h.carries
  have pipeline := Pipeline.work_le carries
  have sensor : r.sensor.work ≤ 2 := by
    cases r.sensor <;> simp [SensorStep.work]
  have monitor : r.monitor.work ≤ 1 := by
    cases r.monitor <;> simp [MonitorStep.work]
  have stop : (r.stop.elim 0 fun c => c.step.work) ≤ 10 := by
    cases r.stop with
    | none => simp
    | some c =>
      obtain ⟨call, step⟩ := c
      cases step <;> simp [StopStep.work]
  rw [EdgeRuntime.work, inFlight]
  omega

theorem work_publish (r : EdgeRuntime) (event : Event) :
    (r.publish event).work = r.work + 10 := by
  simp only [EdgeRuntime.work, EdgeRuntime.publish, Pipeline.work, Pipeline.call, List.map_append,
    List.map_cons, List.map_nil, List.sum_append, List.sum_cons, List.sum_nil, PublishStep.work]
  omega

/- The first step of `stop` makes the call that the rest of it waits for. -/
theorem work_requests (unstopped : r.stop = none) :
    ({ r.publish .shutdownRequested with stop := some { call := r.calls.length } } :
      EdgeRuntime).work = r.work + 20 := by
  have published := r.work_publish .shutdownRequested
  have before : (r.publish .shutdownRequested).stop = none := unstopped
  simp only [EdgeRuntime.work, before, unstopped, Option.elim_none, Option.elim_some,
    StopStep.work] at published ⊢
  omega

/-- A thread of the pipeline moves. -/
theorem work_flow {q : Pipeline} (less : q.work < r.toPipeline.work) :
    ({ r with toPipeline := q } : EdgeRuntime).work < r.work := by
  simp only [EdgeRuntime.work]
  omega

/-- With both tokens set every step comes closer to the end, apart from new calls. -/
theorem Sound.step_work (h : Sound layout protection notes r) (threads : Threads r)
    {c : StopCall} (current : r.stop = some c) (told : c.step.stopsMonitor = true)
    (under : c.step ≠ .returned) {label : Label} (other : label ≠ .start)
    (moved : r.step layout label = some (r', note)) :
    r'.work + 1 ≤ r.work + 11 * label.isPublish.toNat := by
  obtain ⟨backlog, inHand, carries⟩ := h.carries
  cases step_cases moved with
  | starts taken => exact absurd rfl other
  | unstarted stage =>
    rw [h.staged.ordered (by simp [current])] at stage
    contradiction
  | requests started unstopped =>
    rw [current] at unstopped
    contradiction
  | stops current' taken =>
    cases current.symm.trans current'
    exact taken.work current under
  | publishes event =>
    rw [work_publish]
    exact Nat.le_refl _
  | advances here taken => exact work_flow ((Pipeline.advance_cases taken).work carries here)
  | controls taken => exact work_flow ((Pipeline.controlLoop_cases taken).work carries)
  | senses taken =>
    have stopped : r.sensorStop = true := by
      apply threads.sensorStop c current
      cases stage : c.step <;> simp_all [StopStep.stopsMonitor]
    exact taken.work stopped
  | monitors taken => exact taken.work (threads.monitorStop c current told)

/-- A call that has not returned can move, and whoever waits for it comes closer. -/
theorem Sound.call_enabled (h : Sound layout protection notes r) {index : Nat}
    (inside : index < r.calls.length) (waiting : r.hasReturned index = false) :
    ∃ r' note, r.step layout (.advance index 0) = some (r', note) ∧ r'.work < r.work := by
  obtain ⟨backlog, inHand, carries⟩ := h.carries
  have here : r.calls[index]? = some r.calls[index] := List.getElem?_eq_getElem inside
  have moving : r.calls[index].step.isReturned = false := by
    rw [Pipeline.hasReturned, here] at waiting
    cases stage : r.calls[index] with
    | mk event step =>
      rw [stage] at waiting
      cases step <;> first | rfl | contradiction
  obtain ⟨q, note, moved⟩ := Pipeline.advance_enabled layout r.toPipeline index 0 moving
  refine ⟨{ r with toPipeline := q }, note, ?_, ?_⟩
  · simp only [EdgeRuntime.step, here, Option.bind_some, moved, Option.map_some]
  · exact work_flow ((Pipeline.advance_cases moved).work carries here)

theorem Sound.control_enabled (h : Sound layout protection notes r) (shut : r.queue.closed = true)
    (alive : r.control ≠ .absent ∧ r.control ≠ .exited) :
    ∃ r' note, r.step layout (.control 0) = some (r', note) ∧ r'.work < r.work := by
  obtain ⟨backlog, inHand, carries⟩ := h.carries
  have enabled : ∃ q note, r.controlLoop layout 0 = some (q, note) := by
    unfold Pipeline.controlLoop
    cases stage : r.control with
    | absent => exact absurd stage alive.1
    | exited => exact absurd stage alive.2
    | waiting =>
      have popped : r.queue.waitPop = some (if r.queue.size = 0 then (r.queue, none)
          else r.queue.popLocked) := by
        simp [BoundedQueue.waitPop, shut]
      rw [popped]
      dsimp only [Option.map_some]
      split <;> exact ⟨_, _, rfl⟩
    | _ => exact ⟨_, _, rfl⟩
  obtain ⟨q, note, moved⟩ := enabled
  refine ⟨{ r with toPipeline := q }, note, ?_, ?_⟩
  · simp only [EdgeRuntime.step, moved, Option.map_some]
  · exact work_flow ((Pipeline.controlLoop_cases moved).work carries)

/-- A sensor thread that has been told to stop gets there. -/
theorem Sound.sensor_enabled (h : Sound layout protection notes r) (threads : Threads r)
    (stopped : r.sensorStop = true) (alive : r.sensor ≠ .absent ∧ r.sensor ≠ .exited) :
    ∃ label r' note, r.Own label ∧ r.step layout label = some (r', note) ∧ r'.work < r.work := by
  have moves : ∀ r', r.sensorLoop {} = some r' → ∃ label r' note, r.Own label ∧
      r.step layout label = some (r', note) ∧ r'.work < r.work := by
    intro r' moved
    refine ⟨.sensor {}, r', .silent, trivial, ?_, (sensorLoop_cases moved).work stopped⟩
    simp only [EdgeRuntime.step, moved, Option.map_some]
  cases stage : r.sensor with
  | absent => exact absurd stage alive.1
  | exited => exact absurd stage alive.2
  | checking => exact moves { r with sensor := .exited } (by simp [sensorLoop, stage, stopped])
  | sleeping => exact moves { r with sensor := .exited } (by simp [sensorLoop, stage, stopped])
  | awaiting index =>
    cases returned : r.hasReturned index with
    | true =>
      exact moves { r with sensor := .sleeping } (by simp [sensorLoop, stage, returned])
    | false =>
      obtain ⟨r', note, moved, less⟩ := h.call_enabled (threads.awaited index stage) returned
      exact ⟨.advance index 0, r', note, .inl stage, moved, less⟩

/-- Until `stop` has returned, one of the threads that it depends on can move. -/
theorem Sound.own_enabled (h : Sound layout protection notes r) (threads : Threads r)
    {c : StopCall} (current : r.stop = some c) (under : c.step ≠ .returned) :
    ∃ label r' note, r.Own label ∧ r.step layout label = some (r', note) ∧ r'.work < r.work := by
  have started := h.staged.ordered (by simp [current])
  have moves : (r.stopRunning c).isSome = true → ∃ label r' note, r.Own label ∧
      r.step layout label = some (r', note) ∧ r'.work < r.work := by
    intro enabled
    obtain ⟨r', moved⟩ := Option.isSome_iff_exists.mp enabled
    refine ⟨.stop, r', .silent, trivial, ?_, (stopRunning_cases moved).work current under⟩
    simp only [EdgeRuntime.step, stopStep, started, current, moved, Option.map_some]
  cases stage : c.step with
  | publishing =>
    cases returned : r.hasReturned c.call with
    | true => exact moves (by simp [stopRunning, stage, returned])
    | false =>
      obtain ⟨call, here, -, -⟩ := h.staged.shutdown c current
      have inside := (List.getElem?_eq_some_iff.mp here).1
      obtain ⟨r', note, moved, less⟩ := h.call_enabled inside returned
      exact ⟨.advance c.call 0, r', note, .inr (by rw [current]; rfl), moved, less⟩
  | joiningSensor =>
    by_cases gone : r.sensor = .exited
    · exact moves (by simp [stopRunning, stage, gone])
    · have stopped := threads.sensorStop c current (by rw [stage]; rfl)
      exact h.sensor_enabled threads stopped ⟨threads.sensor _ started rfl, gone⟩
  | joiningMonitor =>
    by_cases gone : r.monitor = .exited
    · exact moves (by simp [stopRunning, stage, gone])
    · have stopped := threads.monitorStop c current (by rw [stage]; rfl)
      have sleeping : r.monitor = .sleeping := by
        cases present : r.monitor with
        | absent => exact absurd present (threads.monitor started)
        | sleeping => rfl
        | exited => exact absurd present gone
      have moved : r.monitorLoop = some { r with monitor := .exited } := by
        simp [monitorLoop, sleeping, stopped]
      refine ⟨.monitor, _, .silent, trivial, ?_, (monitorLoop_cases moved).work stopped⟩
      simp only [EdgeRuntime.step, moved, Option.map_some]
  | joiningControl =>
    by_cases gone : r.control = .exited
    · exact moves (by simp [stopRunning, stage, gone])
    · have shut : r.queue.closed = true := h.staged.closed.mpr ⟨c, current, by rw [stage]; rfl⟩
      obtain ⟨r', note, moved, less⟩ :=
        h.control_enabled shut ⟨threads.control _ started rfl, gone⟩
      exact ⟨.control 0, r', note, trivial, moved, less⟩
  | returned => exact absurd stage under
  | _ => exact moves (by simp [stopRunning, stage])

theorem Stops.told {c c' : StopCall} (moved : Stops r c r') (current : r.stop = some c)
    (told : c.step.stopsMonitor = true) (current' : r'.stop = some c') :
    c'.step.stopsMonitor = true := by
  cases moved with
  | again stage =>
    cases current.symm.trans current'
    exact told
  | _ stage =>
    cases current'
    simp_all [StopStep.stopsMonitor, StopStep.stopsSensor]

/- A call of `stop` that is under way takes a step or keeps its place. -/
theorem step_stop {label : Label} (moved : r.step layout label = some (r', note)) {c : StopCall}
    (current : r.stop = some c) : r'.stop = some c ∨ Stops r c r' := by
  cases step_cases moved with
  | starts taken => exact .inl (taken.calls.2.trans current)
  | requests started unstopped =>
    rw [current] at unstopped
    contradiction
  | stops current' taken =>
    cases current.symm.trans current'
    exact .inr taken
  | senses taken => exact .inl (taken.calls.2.trans current)
  | monitors taken => exact .inl (taken.calls.2.trans current)
  | _ => exact .inl current

/-- A sound runtime with a call of `stop` that has come so far. -/
structure Stopped (layout : Layout) (protection : ProtectionConfig) (far : StopStep → Prop)
    (notes : List Note) (r : EdgeRuntime) : Prop where
  sound : Sound layout protection notes r
  threads : Threads r
  call : ∃ c, r.stop = some c ∧ far c.step

theorem Stopped.step {far : StopStep → Prop} (h : Stopped layout protection far notes r)
    (keeps : ∀ c c', Stops r c r' → r.stop = some c → far c.step → r'.stop = some c' → far c'.step)
    {label : Label} (moved : r.step layout label = some (r', note)) :
    Stopped layout protection far (notes ++ [note]) r' := by
  refine ⟨h.sound.step moved, h.threads.step h.sound.staged moved, ?_⟩
  obtain ⟨c, current, here⟩ := h.call
  rcases step_stop moved current with same | taken
  · exact ⟨c, same, here⟩
  · obtain ⟨c', current', -⟩ := Option.map_eq_some_iff.mp (taken.calls current).2
    exact ⟨c', current', keeps c c' taken current here current'⟩

/-- With a call of `stop` under way there is a way to its end. -/
theorem Stopped.returns (h : Stopped layout protection (fun _ => True) notes r) :
    ∃ more r' later c, Exec.run (EdgeRuntime.step layout) r more = some (r', later) ∧
      Exec.Always (EdgeRuntime.step layout) Own r more ∧ more.length ≤ r.work ∧
      r'.stop = some c ∧ c.step = .returned := by
  have closer : ∀ told t, Stopped layout protection (fun _ => True) told t → ¬ t.stopping = false →
      ∃ label u note, t.Own label ∧ t.step layout label = some (u, note) ∧
        Stopped layout protection (fun _ => True) (told ++ [note]) u ∧ u.work < t.work := by
    intro told t here goesOn
    obtain ⟨c, current, -⟩ := here.call
    have under : c.step ≠ .returned := by simpa [stopping, current] using goesOn
    obtain ⟨label, u, note, own, moved, less⟩ := here.sound.own_enabled here.threads current under
    exact ⟨label, u, note, own, moved, here.step (fun _ _ _ _ _ _ => trivial) moved, less⟩
  obtain ⟨more, r', later, future, last, done, always, short⟩ :=
    Exec.run_reaches EdgeRuntime.work closer h
  obtain ⟨c, current, -⟩ := last.call
  have returned : c.step = .returned := by simpa [stopping, current] using done
  exact ⟨more, r', later, c, future, always, short, current, returned⟩

theorem run_threads {hasSensor : Bool} {labels : List Label}
    (history : Exec.run (EdgeRuntime.step layout) (initial protection hasSensor) labels =
      some (r, notes)) : Threads r := by
  refine Exec.past_induction (P := fun _ _ r => Threads r) threads_initial ?_ history
  intro _ _ t label u note past threads moved
  exact threads.step (run_sound past).staged moved

end Steps

/-- Once `stop` has set both stop tokens, it returns after at most so many steps of all
threads together, in whatever order they move, and until then one of the threads that it
depends on can move. As long as `start` is not called again, only calls of `publish` from
outside can draw it out, each by a few steps. -/
theorem stop_winds_down (layout : Layout) (protection : ProtectionConfig) (hasSensor : Bool)
    (labels more : List Label) (r r' : EdgeRuntime) (notes later : List Note)
    (history : Exec.run (EdgeRuntime.step layout) (initial protection hasSensor) labels =
      some (r, notes))
    (c : StopCall) (current : r.stop = some c) (told : c.step.stopsMonitor = true)
    (future : Exec.run (EdgeRuntime.step layout) r more = some (r', later))
    (during : Exec.Always (EdgeRuntime.step layout)
      (fun t label => t.stopping = true ∧ label ≠ .start) r more) :
    more.length ≤ 10 * r.inFlight + 11 * more.countP Label.isPublish + 658 ∧
    (r'.stopping = true → ∃ label, r'.Own label ∧ (r'.step layout label).isSome = true) := by
  have winding : Stopped layout protection (·.stopsMonitor = true) notes r :=
    ⟨run_sound history, run_threads history, c, current, told⟩
  have closer : ∀ told t label u note, Stopped layout protection (·.stopsMonitor = true) told t →
      (t.stopping = true ∧ label ≠ .start) → t.step layout label = some (u, note) →
      Stopped layout protection (·.stopsMonitor = true) (told ++ [note]) u ∧
        u.work + 1 ≤ t.work + 11 * label.isPublish.toNat := by
    rintro told t label u note here ⟨under, other⟩ moved
    obtain ⟨c, current, told⟩ := here.call
    have under : c.step ≠ .returned := by simpa [stopping, current] using under
    refine ⟨here.step ?_ moved,
      here.sound.step_work here.threads current told under other moved⟩
    intro c c' taken current told current'
    exact taken.told current told current'
  obtain ⟨last, bound⟩ := Exec.run_length EdgeRuntime.work Label.isPublish 11 closer notes winding
    during future
  have start := winding.sound.work_le
  refine ⟨by omega, ?_⟩
  intro under
  obtain ⟨c', current', -⟩ := last.call
  have under : c'.step ≠ .returned := by simpa [stopping, current'] using under
  obtain ⟨label, r'', note, own, moved, -⟩ :=
    last.sound.own_enabled last.threads current' under
  exact ⟨label, own, by rw [moved]; rfl⟩

/- The threads of an orderly lifecycle up to the second stop token, and the rest. -/
def telling : List Label :=
  starting ++ (.stop :: List.replicate 4 (.advance 2 0)) ++ List.replicate 5 .stop

def unwinding : List Label :=
  [.sensor {}, .monitor] ++ List.replicate 3 .stop ++ draining 3 ++ [.stop, .stop]

theorem stop_winds_down_orderly :
    ∃ r notes r' later c,
      Exec.run (EdgeRuntime.step unitLayout) (initial {} true) telling = some (r, notes) ∧
      r.stop = some c ∧ c.step.stopsMonitor = true ∧
      Exec.run (EdgeRuntime.step unitLayout) r unwinding = some (r', later) ∧
      Exec.Always (EdgeRuntime.step unitLayout)
        (fun t label => t.stopping = true ∧ label ≠ .start) r unwinding ∧
      unwinding.length ≤ 10 * r.inFlight + 11 * unwinding.countP Label.isPublish + 658 := by
  have outcome : (Exec.run (EdgeRuntime.step unitLayout) (initial {} true) telling).any
      (fun reached => reached.1.stop = some ⟨2, .joiningSensor⟩ ∧
        (Exec.run (EdgeRuntime.step unitLayout) reached.1 unwinding).isSome = true ∧
        Exec.Always (EdgeRuntime.step unitLayout)
          (fun t label => t.stopping = true ∧ label ≠ .start) reached.1 unwinding) = true := by
    decide +kernel
  obtain ⟨⟨r, notes⟩, history, facts⟩ := (Option.any_eq_true _ _).mp outcome
  obtain ⟨current, enabled, during⟩ := of_decide_eq_true facts
  obtain ⟨⟨r', later⟩, future⟩ := Option.isSome_iff_exists.mp enabled
  exact ⟨r, notes, r', later, _, history, current, rfl, future, during,
    (stop_winds_down unitLayout {} true telling unwinding r r' notes later history _ current rfl
      future during).1⟩

/-- Whatever has happened since `start` returned, the threads of the runtime can bring a
call of `stop` to its end, even if no other publisher ever moves again. -/
theorem stop_can_return (layout : Layout) (protection : ProtectionConfig) (hasSensor : Bool)
    (labels : List Label) (r : EdgeRuntime) (notes : List Note)
    (history : Exec.run (EdgeRuntime.step layout) (initial protection hasSensor) labels =
      some (r, notes)) (started : r.start = some .returned) :
    ∃ more r' later c, Exec.run (EdgeRuntime.step layout) r more = some (r', later) ∧
      Exec.Always (EdgeRuntime.step layout) Own r more ∧ more.length ≤ 10 * r.inFlight + 679 ∧
      r'.stop = some c ∧ c.step = .returned := by
  have sound := run_sound history
  have bound := sound.work_le
  cases under : r.stop with
  | some c =>
    obtain ⟨more, r', later, c', future, always, short, done⟩ :=
      Stopped.returns ⟨sound, run_threads history, c, under, trivial⟩
    exact ⟨more, r', later, c', future, always, by omega, done⟩
  | none =>
    have request : r.step layout .stop =
        some ({ r.publish .shutdownRequested with stop := some { call := r.calls.length } },
          .silent) := by
      simp [EdgeRuntime.step, stopStep, started, under]
    obtain ⟨more, r', later, c', future, always, short, done⟩ :=
      Stopped.returns ⟨sound.step request, (run_threads history).step sound.staged request, _, rfl,
        trivial⟩
    refine ⟨.stop :: more, r', .silent :: later, c', ?_, ?_, ?_, done⟩
    · exact Exec.run_cons.mpr ⟨_, _, later, request, future, rfl⟩
    · exact (Exec.always_cons request).mpr ⟨trivial, always⟩
    · have request := work_requests under
      rw [List.length_cons]
      omega

theorem stop_can_return_started :
    ∃ r notes, Exec.run (EdgeRuntime.step unitLayout) (initial {} true) starting = some (r, notes) ∧
      r.start = some .returned ∧
      ∃ more r' later c, Exec.run (EdgeRuntime.step unitLayout) r more = some (r', later) ∧
        Exec.Always (EdgeRuntime.step unitLayout) Own r more ∧ more.length ≤ 10 * r.inFlight + 679 ∧
        r'.stop = some c ∧ c.step = .returned := by
  have outcome : (Exec.run (EdgeRuntime.step unitLayout) (initial {} true) starting).any
      (fun reached => reached.1.start = some .returned) = true := by decide +kernel
  obtain ⟨⟨r, notes⟩, history, started⟩ := (Option.any_eq_true _ _).mp outcome
  have started := of_decide_eq_true started
  exact ⟨r, notes, history, started,
    stop_can_return unitLayout {} true starting r notes history started⟩

end EdgeRuntime

end EdgeSentinel
