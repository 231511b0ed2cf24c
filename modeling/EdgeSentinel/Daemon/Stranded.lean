import EdgeSentinel.Daemon.Response
import EdgeSentinel.Fsm.Latch
import EdgeSentinel.Runtime.Congestion

/-! A reset that fails half way. With room for one more event in the queue the request
gets in and the self test does not; the client is told of an error, and the machine
leaves its latched fault for a self test that nobody reports as passed. -/
namespace EdgeSentinel.Daemon

open EdgeRuntime (unitLayout calling Idle)

/- The sensor's thread through one period. -/
def sampling (call : Nat) : List DaemonLabel :=
  .sensor :: List.replicate 4 (.advance call 0) ++ [.sensor, .sensor]

/- A client unplugs the sensor, and the machine has seen it. -/
def latching : List DaemonLabel :=
  opening ++ [.accept [.received (Ipc.literal "inject offline\n")], .serve, .serve, .serve] ++
    (List.range 3).flatMap (fun k => sampling (2 + k)) ++ List.replicate 25 (.control 0)

section Runs

variable {layout : Layout} {fromChars : List UInt8 → Ipc.FromChars} {format : Double → List UInt8}
  {d : Daemon} {notes later : List Note} {r : EdgeRuntime}

/- Steps that belong to the runtime alone. -/
theorem run_replicate {inner : Label} {outer : DaemonLabel}
    (same : ∀ d, Daemon.step layout fromChars format d outer = d.runtimeStep layout inner)
    {count : Nat}
    (history : Exec.run (EdgeRuntime.step layout) d.runtime (List.replicate count inner) =
      some (r, notes)) :
    Exec.run (Daemon.step layout fromChars format) d (List.replicate count outer) =
      some ({ d with runtime := r }, notes) := by
  induction count generalizing d notes with
  | zero =>
    cases history
    rfl
  | succ count ih =>
    obtain ⟨m, note, tail, first, rest, rfl⟩ := Exec.run_cons.mp history
    refine Exec.run_cons.mpr ⟨{ d with runtime := m }, note, tail, ?_, ih rest, rfl⟩
    rw [same, runtimeStep, first]
    rfl

theorem within_replicate {index count : Nat} (busy : d.server.inResponse = true) :
    WithinResponse layout fromChars format d (List.replicate count (.advance index 0)) := by
  induction count generalizing d with
  | zero => trivial
  | succ count ih =>
    refine ⟨busy, fun t note moved => ih ?_⟩
    obtain ⟨r, -, rfl⟩ := runtimeStep_cases moved
    exact busy

/-- The daemon between two steps of its threads, with a fault latched or on its way to be
latched, and the sensor still unplugged. -/
structure Ready (layout : Layout) (notes : List Note) (d : Daemon) : Prop where
  idle : Idle layout {} notes d.runtime
  present : d.runtime.hasSensor = true
  running : d.runtime.sensorStop = false
  reached : Reached layout notes d
  server : d.server = .accepting
  injected : d.sensor.override ≠ none
  fault : d.runtime.machine.state = .faultLatched
  latched : (Mealy.final MotorStateMachine.handle (.initial {}) (pushedEvents notes)).state =
    .faultLatched

theorem Ready.reading (h : Ready layout notes d) : d.reading = d.sensor.read := by
  simp [Daemon.reading, h.idle.sensor, h.running, h.present]

theorem sensorLoop_publishes {sample : SensorSample} (stage : r.sensor = .checking)
    (present : r.hasSensor = true) (running : r.sensorStop = false) :
    r.sensorLoop sample = some (({ r with sensor := .awaiting r.calls.length } :
      EdgeRuntime).calling (.sensorSample sample) .checking) := by
  unfold EdgeRuntime.sensorLoop
  rw [stage]
  exact (if_neg (by simp [running])).trans (if_pos present)

theorem sensorLoop_returns {sample : SensorSample} {index : Nat}
    (stage : r.sensor = .awaiting index) (returned : r.hasReturned index = true) :
    r.sensorLoop sample = some { r with sensor := .sleeping } := by
  unfold EdgeRuntime.sensorLoop
  rw [stage]
  exact if_pos returned

theorem sensorLoop_wakes {sample : SensorSample} (stage : r.sensor = .sleeping)
    (running : r.sensorStop = false) :
    r.sensorLoop sample = some { r with sensor := .checking } := by
  unfold EdgeRuntime.sensorLoop
  rw [stage, running]
  rfl

/- Steps of the sensor's thread in which it reads nothing. -/
theorem step_sensor {r' : EdgeRuntime} (waiting : d.runtime.sensor ≠ .checking)
    (moved : d.runtime.sensorLoop {} = some r') :
    Daemon.step layout fromChars format d .sensor = some ({ d with runtime := r' }, .silent) := by
  have still : d.reading = (d.sensor, {}) := if_neg fun reads => waiting reads.1
  simp [Daemon.step, sensorStep, still, moved]

theorem step_reports (first second : PublishResult) {reset index : Nat}
    (stage : d.server = .awaitingSelfTest reset index)
    (earlier : d.runtime.result reset = some first)
    (returned : d.runtime.result index = some second) :
    Daemon.step layout fromChars format d .serve =
      some (d.respond [reset, index] (delivery "ok=reset_requested" [first, second]),
        .silent) := by
  simp only [Daemon.step, serverStep, stage, earlier, returned, Option.bind_some, Option.map_some]

variable (fromChars) (format)

/-- One period of the sensor's thread puts one more sample into the queue. -/
theorem Ready.sample (h : Ready layout notes d)
    (room : d.runtime.queue.size < kEventQueueCapacity) :
    ∃ d' later, Exec.run (Daemon.step layout fromChars format) d
        (sampling d.runtime.calls.length) = some (d', later) ∧
      Ready layout (notes ++ later) d' ∧
      d'.runtime.queue.size = d.runtime.queue.size + 1 ∧
      d'.runtime.calls.length = d.runtime.calls.length + 1 := by
  obtain ⟨pool, handle, created, some⟩ := h.idle.creates (.sensorSample d.sensor.read.2)
  have first : Daemon.step layout fromChars format d .sensor =
      .some ({ d with
        sensor := d.sensor.read.1
        runtime := ({ d.runtime with sensor := .awaiting d.runtime.calls.length } :
          EdgeRuntime).calling (.sensorSample d.sensor.read.2) .checking }, .silent) := by
    simp only [Daemon.step, sensorStep, h.reading,
      sensorLoop_publishes h.idle.sensor h.present h.running, Option.map_some]
  have landed := EdgeRuntime.run_landing
    (r := { d.runtime with sensor := .awaiting d.runtime.calls.length })
    h.idle.accepting h.idle.live room created some
  have history : Exec.run (Daemon.step layout fromChars format) d
      (sampling d.runtime.calls.length) =
      .some ({ d with
        sensor := d.sensor.read.1
        runtime := ({ d.runtime with
            pool
            queue := d.runtime.queue.pushLocked handle
            metrics := d.runtime.metrics.recordPublished
            sensor := .checking } : EdgeRuntime).calling (.sensorSample d.sensor.read.2)
              (.returned .published) },
        [.silent, .silent, .silent,
          .pushed d.runtime.calls.length (.sensorSample d.sensor.read.2), .silent, .silent,
          .silent]) := by
    refine Exec.run_append
      (Exec.run_cons.mpr ⟨_, _, _, first, run_replicate (fun _ => rfl) landed, rfl⟩)
      (Exec.run_cons.mpr ⟨_, _, _, step_sensor (by rintro ⟨⟩) (sensorLoop_returns rfl ?_),
        Exec.run_cons.mpr ⟨_, _, _,
          step_sensor (by rintro ⟨⟩) (sensorLoop_wakes rfl h.running), rfl, rfl⟩, rfl⟩)
    simp [calling, Pipeline.hasReturned]
  have same : ({ d.runtime with sensor := .checking } : EdgeRuntime) = d.runtime := by
    rw [← h.idle.sensor]
  have idle : Idle layout {} notes { d.runtime with sensor := .checking } := by
    rw [same]
    exact h.idle
  refine ⟨_, _, history, ⟨idle.returned (h.reached.run history).sound ?_, h.present, h.running,
    h.reached.run history, h.server, h.injected, h.fault, ?_⟩, rfl, by simp [calling]⟩
  · intro event member
    cases List.mem_singleton.mp member
    exact (by decide : EventKind.sensorSample ≠ .shutdownRequested)
  · rw [Pipeline.pushedEvents_append, Mealy.final_append]
    refine MotorStateMachine.final_faultLatched h.latched ?_
    intro event member
    cases List.mem_singleton.mp member
    exact .inl rfl

/-- The sensor's thread fills the queue as far as it likes. -/
theorem Ready.fill (h : Ready layout notes d) (count : Nat)
    (room : d.runtime.queue.size + count ≤ kEventQueueCapacity) :
    ∃ d' later, Exec.run (Daemon.step layout fromChars format) d
        ((List.range count).flatMap fun k => sampling (d.runtime.calls.length + k)) =
          some (d', later) ∧
      Ready layout (notes ++ later) d' ∧
      d'.runtime.queue.size = d.runtime.queue.size + count ∧
      d'.runtime.calls.length = d.runtime.calls.length + count := by
  refine Exec.run_range
    (P := fun k later d' => Ready layout (notes ++ later) d' ∧
      d'.runtime.queue.size = d.runtime.queue.size + k ∧
      d'.runtime.calls.length = d.runtime.calls.length + k)
    ⟨by simpa using h, rfl, rfl⟩ ?_
  rintro k later t bound ⟨ready, size, length⟩
  obtain ⟨d', more, next, ready', size', length'⟩ := ready.sample fromChars format (by omega)
  rw [length] at next
  exact ⟨d', more, next, by simpa using ready', by omega, by omega⟩

/-- The first event of the reset takes the last place in the queue. -/
theorem Ready.requests (h : Ready layout notes d)
    (size : d.runtime.queue.size + 1 = kEventQueueCapacity) :
    ∃ d' later, Exec.run (Daemon.step layout fromChars format)
        (d.handOver (Ipc.literal "reset\n"))
        (.serve :: List.replicate 4 (.advance d.runtime.calls.length 0)) = some (d', later) ∧
      WithinResponse layout fromChars format (d.handOver (Ipc.literal "reset\n"))
        (.serve :: List.replicate 4 (.advance d.runtime.calls.length 0)) ∧
      Idle layout {} (notes ++ later) d'.runtime ∧
      d'.server = .awaitingReset d.runtime.calls.length ∧
      d'.runtime.result d.runtime.calls.length = some .published ∧
      d'.runtime.calls.length = d.runtime.calls.length + 1 ∧
      d'.runtime.queue.size = kEventQueueCapacity ∧ d'.sensor.override = none ∧
      .pushed d.runtime.calls.length .resetRequested ∈ later ∧
      pushedEvents later = [.resetRequested] := by
  obtain ⟨pool, handle, created, some⟩ := h.idle.creates .resetRequested
  have asked : Daemon.step layout fromChars format (d.handOver (Ipc.literal "reset\n")) .serve =
      .some ({ d with
        sensor := d.sensor.clearOverride
        server := .awaitingReset d.runtime.calls.length
        runtime := d.runtime.calling .resetRequested .checking }, .silent) := rfl
  have landed := EdgeRuntime.run_landing h.idle.accepting h.idle.live
    (show d.runtime.queue.size < kEventQueueCapacity by omega) created some
  have history : Exec.run (Daemon.step layout fromChars format)
      (d.handOver (Ipc.literal "reset\n"))
      (.serve :: List.replicate 4 (.advance d.runtime.calls.length 0)) =
      .some ({ d with
        sensor := d.sensor.clearOverride
        server := .awaitingReset d.runtime.calls.length
        runtime := ({ d.runtime with
            pool
            queue := d.runtime.queue.pushLocked handle
            metrics := d.runtime.metrics.recordPublished } : EdgeRuntime).calling .resetRequested
              (.returned .published) },
        [.silent, .silent, .silent, .pushed d.runtime.calls.length .resetRequested, .silent]) :=
    Exec.run_cons.mpr ⟨_, _, _, asked, run_replicate (fun _ => rfl) landed, rfl⟩
  have reached := (h.reached.handOver h.server (Ipc.literal "reset\n")).run history
  refine ⟨_, _, history, (Exec.always_cons asked).mpr ⟨rfl, within_replicate rfl⟩,
    h.idle.returned reached.sound ?_, rfl, ?_, ?_, size, rfl, by simp, rfl⟩
  · intro event member
    cases List.mem_singleton.mp member
    decide
  · simp [Pipeline.result, calling]
  · simp [calling]

/-- In front of a full queue the second event is lost, and the client is told. -/
theorem reports_failure (idle : Idle layout {} notes d.runtime) {index : Nat}
    (stage : d.server = .awaitingReset index)
    (published : d.runtime.result index = some .published)
    (full : d.runtime.queue.size = kEventQueueCapacity) :
    ∃ d', Exec.run (Daemon.step layout fromChars format) d
        (.serve :: List.replicate 5 (.advance d.runtime.calls.length 0) ++ [.serve]) =
          some (d', List.replicate 7 .silent) ∧
      WithinResponse layout fromChars format d
        (.serve :: List.replicate 5 (.advance d.runtime.calls.length 0) ++ [.serve]) ∧
      d'.server = .responding [index, d.runtime.calls.length]
        (Ipc.literal "error=event_delivery_failed") ∧
      d'.runtime.control = .waiting ∧ d'.runtime.queue.size = kEventQueueCapacity ∧
      d'.sensor = d.sensor ∧ d'.main = d.main := by
  obtain ⟨pool, handle, created, some⟩ := idle.creates .selfTestPassed
  have full' : ¬ d.runtime.queue.size < kEventQueueCapacity := by omega
  have size : (d.runtime.queue.waitPush handle).1.size = kEventQueueCapacity := by
    rw [BoundedQueue.waitPush_full handle idle.live full']
    exact full
  have proceeds : Daemon.step layout fromChars format d .serve =
      .some ({ d with
        server := .awaitingSelfTest index d.runtime.calls.length
        runtime := d.runtime.calling .selfTestPassed .checking }, .silent) := by
    simp only [Daemon.step, serverStep, stage, published, Option.map_some]
    rfl
  have missed : Exec.run (Daemon.step layout fromChars format) d
      (.serve :: List.replicate 5 (.advance d.runtime.calls.length 0)) =
      .some ({ d with
        server := .awaitingSelfTest index d.runtime.calls.length
        runtime := ({ d.runtime with
            pool := pool.reset layout handle
            queue := (d.runtime.queue.waitPush handle).1
            metrics := d.runtime.metrics.recordDropped } : EdgeRuntime).calling .selfTestPassed
              (.returned .queueTimeout) }, List.replicate 6 .silent) :=
    Exec.run_cons.mpr ⟨_, _, _, proceeds, run_replicate (fun _ => rfl)
      (EdgeRuntime.run_missing idle.accepting idle.live full' created some), rfl⟩
  refine ⟨_, Exec.run_append missed (Exec.run_cons.mpr ⟨_, _, _,
    step_reports .published .queueTimeout rfl (Pipeline.result_append rfl published) ?_, rfl,
    rfl⟩), ?_, rfl, idle.control, size, rfl, rfl⟩
  · simp [Pipeline.result, calling]
  · refine (Exec.always_concat missed).mpr ⟨(Exec.always_cons proceeds).mpr ⟨?_, ?_⟩, rfl⟩
    · rw [stage]
      rfl
    · exact within_replicate rfl

/-- The control loop works off the queue, and the request is the last thing it finds. -/
theorem strands (reached : Reached layout (notes ++ later) d)
    (latched : (Mealy.final MotorStateMachine.handle (.initial {}) (pushedEvents notes)).state =
      .faultLatched) (requested : pushedEvents later = [.resetRequested])
    (stage : d.runtime.control = .waiting) :
    ∃ d' rest, Exec.run (Daemon.step layout fromChars format) d
        (List.replicate (5 * d.runtime.queue.size) (.control 0)) = some (d', rest) ∧
      d'.runtime.machine.state = .selfTest := by
  obtain ⟨backlog, inHand, carries⟩ := reached.sound.carries
  obtain ⟨r, rest, laps, silent, waiting, empty, -⟩ :=
    EdgeRuntime.run_laps layout stage carries.queue
  rw [← carries.queue.size] at laps
  have history : Exec.run (Daemon.step layout fromChars format) d
      (List.replicate (5 * d.runtime.queue.size) (.control 0)) =
        some ({ d with runtime := r }, rest) := run_replicate (fun _ => rfl) laps
  refine ⟨_, rest, history, ?_⟩
  have sound := reached.sound.run laps
  have handled := sound.emptied empty.size (by rw [waiting]; rfl)
  have machine := sound.handled.2
  rw [handled, Pipeline.pushedEvents_append, Pipeline.pushedEvents_append, silent, requested,
    List.append_nil, Mealy.final_concat] at machine
  rw [machine]
  have moved := MotorStateMachine.handle_state
    (MotorStateMachine.idle_of_state latched (by decide)) .resetRequested
  rw [latched] at moved
  exact moved

end Runs

theorem run_latching :
    ∃ d notes, Exec.run (Daemon.step unitLayout noNumber noText) initial latching =
        some (d, notes) ∧
      Ready unitLayout notes d ∧ d.runtime.calls.length = 5 ∧ d.runtime.queue.size = 0 := by
  have outcome : (Exec.run (Daemon.step unitLayout noNumber noText) initial latching).any
      (fun (d, notes) => d.runtime.start = some .returned ∧ d.runtime.stop = none ∧
        d.runtime.control = .waiting ∧ d.runtime.sensor = .checking ∧
        d.runtime.monitor = .sleeping ∧ (∀ call ∈ d.runtime.calls, call.step.isReturned = true) ∧
        (∀ event ∈ pushedEvents notes, event.kind ≠ .shutdownRequested) ∧
        d.runtime.hasSensor = true ∧ d.runtime.sensorStop = false ∧
        d.server = .accepting ∧ d.sensor.override ≠ none ∧
        d.runtime.machine.state = .faultLatched ∧
        (Mealy.final MotorStateMachine.handle (.initial {}) (pushedEvents notes)).state =
          .faultLatched ∧ d.runtime.calls.length = 5 ∧ d.runtime.queue.size = 0) = true := by
    decide +kernel
  obtain ⟨⟨d, notes⟩, history, facts⟩ := (Option.any_eq_true _ _).mp outcome
  obtain ⟨started, unstopped, control, sensor, monitor, calls, calm, present, running, server,
    injected, fault, latched, length, size⟩ := of_decide_eq_true facts
  have reached := reached_initial.run history
  have idle : Idle unitLayout {} notes d.runtime :=
    ⟨reached.sound, started, unstopped, calls, control, sensor, monitor, calm⟩
  exact ⟨d, notes, history,
    ⟨idle, present, running, reached, server, injected, fault, latched⟩, length, size⟩

/-- The sensor is unplugged, the machine has latched the fault and the queue has room for
one event. A reset is answered with an error, has cleared the override and delivered its
request, and leaves the machine in the self test. -/
theorem failed_reset_strands :
    ∃ d past d' notes d'' rest,
      Exec.run (Daemon.step unitLayout noNumber noText) initial
        (latching ++ (List.range 127).flatMap fun k => sampling (5 + k)) = some (d, past) ∧
      d.server = .accepting ∧ d.runtime.machine.state = .faultLatched ∧
      Exec.run (Daemon.step unitLayout noNumber noText) (d.handOver (Ipc.literal "reset\n"))
        (resetting 132 4 5) = some (d', notes) ∧
      WithinResponse unitLayout noNumber noText (d.handOver (Ipc.literal "reset\n"))
        (resetting 132 4 5) ∧
      d'.server = .responding [132, 133] (Ipc.literal "error=event_delivery_failed") ∧
      ¬ (Ipc.literal "error=" <+: Ipc.literal "error=event_delivery_failed" →
        NoEffect [132, 133] notes d d') ∧
      .pushed 132 .resetRequested ∈ notes ∧ d.sensor.override ≠ none ∧ d'.sensor.override = none ∧
      Exec.run (Daemon.step unitLayout noNumber noText) d' (List.replicate 640 (.control 0)) =
        some (d'', rest) ∧
      d''.runtime.machine.state = .selfTest := by
  obtain ⟨d₀, notes₀, latched, ready₀, length₀, size₀⟩ := run_latching
  obtain ⟨d, later, filled, ready, size, length⟩ :=
    ready₀.fill noNumber noText 127 (by rw [size₀]; decide)
  rw [length₀] at filled length
  rw [size₀] at size
  obtain ⟨d₁, notes₁, asked, within₁, idle, stage, published, length₁, full, cleared, pushed,
    requested⟩ := ready.requests noNumber noText (by rw [size]; rfl)
  obtain ⟨d₂, failed, within₂, answered, control, size₂, sensor, main⟩ :=
    reports_failure noNumber noText idle stage published full
  rw [length] at asked within₁ stage published length₁ pushed answered
  rw [length₁] at failed within₂ answered
  have history : Exec.run (Daemon.step unitLayout noNumber noText)
      (d.handOver (Ipc.literal "reset\n")) (resetting 132 4 5) = _ := Exec.run_append asked failed
  have within : WithinResponse unitLayout noNumber noText (d.handOver (Ipc.literal "reset\n"))
      (resetting 132 4 5) := (Exec.always_append asked).mpr ⟨within₁, within₂⟩
  have reached := (ready.reached.handOver ready.server (Ipc.literal "reset\n")).run history
  have last : pushedEvents (notes₁ ++ List.replicate 7 .silent) = [.resetRequested] := by
    rw [Pipeline.pushedEvents_append, requested]
    rfl
  obtain ⟨d₃, rest, drained, stranded⟩ :=
    strands noNumber noText reached ready.latched last control
  rw [size₂] at drained
  refine ⟨d, notes₀ ++ later, d₂, notes₁ ++ List.replicate 7 .silent, d₃, rest,
    Exec.run_append latched filled, ready.server, ready.fault, history, within, answered, ?_,
    List.mem_append_left _ pushed, ready.injected, sensor ▸ cleared, drained, stranded⟩
  intro harmless
  exact (harmless (by decide)).1 132 List.mem_cons_self _ (List.mem_append_left _ pushed)

end EdgeSentinel.Daemon
