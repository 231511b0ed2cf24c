import EdgeSentinel.Runtime.Shutdown

/-! A shutdown request that gets lost. Publishers fill the queue before the control
loop gets to run; the request of `stop` times out, and `stop` drains the queue and
joins the threads as if it had been delivered. -/
namespace EdgeSentinel.EdgeRuntime

/- The runtime with one more call of `publish`. -/
def calling (r : EdgeRuntime) (event : Event) (step : PublishStep) : EdgeRuntime :=
  { r with calls := r.calls ++ [{ event, step }] }

/- One call of `publish` after the other, each to its end. -/
def filling (first count : Nat) : List Label :=
  (List.range count).flatMap fun k =>
    .publish .resetRequested :: List.replicate 4 (.advance (first + k) 0)

/- A call of `stop` whose call of `publish` fails at the queue. -/
def timingOut (first : Nat) : List Label := .stop :: List.replicate 5 (.advance first 0)

section Calls

variable {layout : Layout} {r : EdgeRuntime} {event : Event} {now : Nat} {handle : Handle}

theorem step_checking (accepting : r.acceptingEvents = true) :
    EdgeRuntime.step layout (r.calling event .checking) (.advance r.calls.length now) =
      some (r.calling event .allocating, .silent) := by
  simp [EdgeRuntime.step, calling, Pipeline.advance, Pipeline.move, accepting]

theorem step_allocating {pool : FixedObjectPool PooledEvent kEventPoolCapacity}
    (created : r.pool.tryCreate layout (.ok ⟨event, now⟩ : Except Empty PooledEvent) =
      (pool, .ok handle)) (some : handle.object ≠ 0) :
    EdgeRuntime.step layout (r.calling event .allocating) (.advance r.calls.length now) =
      .some (({ r with pool } : EdgeRuntime).calling event (.pushing handle), .silent) := by
  simp [EdgeRuntime.step, calling, Pipeline.advance, Pipeline.move, created, some]

theorem step_pushing (live : r.queue.closed = false) (room : r.queue.size < kEventQueueCapacity) :
    EdgeRuntime.step layout (r.calling event (.pushing handle)) (.advance r.calls.length now) =
      some (({ r with queue := r.queue.pushLocked handle } : EdgeRuntime).calling event .recording,
        .pushed r.calls.length event) := by
  simp [EdgeRuntime.step, calling, Pipeline.advance, Pipeline.move,
    BoundedQueue.waitPush_room handle live room]

theorem step_recording :
    EdgeRuntime.step layout (r.calling event .recording) (.advance r.calls.length now) =
      some (({ r with metrics := r.metrics.recordPublished } : EdgeRuntime).calling event
        (.returned .published), .silent) := by
  simp [EdgeRuntime.step, calling, Pipeline.advance, Pipeline.move]

theorem step_timeout (live : r.queue.closed = false)
    (full : ¬ r.queue.size < kEventQueueCapacity) :
    EdgeRuntime.step layout (r.calling event (.pushing handle)) (.advance r.calls.length now) =
      some (({ r with queue := (r.queue.waitPush handle).1 } : EdgeRuntime).calling event
        (.releasing handle .queueTimeout), .silent) := by
  simp [EdgeRuntime.step, calling, Pipeline.advance, Pipeline.move,
    BoundedQueue.waitPush_full handle live full]

theorem step_releasing {result : PublishResult} :
    EdgeRuntime.step layout (r.calling event (.releasing handle result))
        (.advance r.calls.length now) =
      some (({ r with pool := r.pool.reset layout handle } : EdgeRuntime).calling event
        (.dropping result), .silent) := by
  simp [EdgeRuntime.step, calling, Pipeline.advance, Pipeline.move]

theorem step_dropping {result : PublishResult} :
    EdgeRuntime.step layout (r.calling event (.dropping result)) (.advance r.calls.length now) =
      some (({ r with metrics := r.metrics.recordDropped } : EdgeRuntime).calling event
        (.returned result), .silent) := by
  simp [EdgeRuntime.step, calling, Pipeline.advance, Pipeline.move]

/-- A call that nobody disturbs, from its first check to its end. -/
theorem run_landing {pool : FixedObjectPool PooledEvent kEventPoolCapacity}
    (accepting : r.acceptingEvents = true) (live : r.queue.closed = false)
    (room : r.queue.size < kEventQueueCapacity)
    (created : r.pool.tryCreate layout (.ok ⟨event, 0⟩ : Except Empty PooledEvent) =
      (pool, .ok handle)) (some : handle.object ≠ 0) :
    Exec.run (EdgeRuntime.step layout) (r.calling event .checking)
        (List.replicate 4 (.advance r.calls.length 0)) =
      .some (({ r with
          pool
          queue := r.queue.pushLocked handle
          metrics := r.metrics.recordPublished } : EdgeRuntime).calling event
            (.returned .published), [.silent, .silent, .pushed r.calls.length event, .silent]) := by
  refine Exec.run_cons.mpr ⟨_, _, _, step_checking accepting, ?_, rfl⟩
  refine Exec.run_cons.mpr ⟨_, _, _, step_allocating created some, ?_, rfl⟩
  refine Exec.run_cons.mpr ⟨_, _, _, step_pushing live room, ?_, rfl⟩
  exact Exec.run_cons.mpr ⟨_, _, _, step_recording, rfl, rfl⟩

/-- The same in front of a full queue. -/
theorem run_missing {pool : FixedObjectPool PooledEvent kEventPoolCapacity}
    (accepting : r.acceptingEvents = true) (live : r.queue.closed = false)
    (full : ¬ r.queue.size < kEventQueueCapacity)
    (created : r.pool.tryCreate layout (.ok ⟨event, 0⟩ : Except Empty PooledEvent) =
      (pool, .ok handle)) (some : handle.object ≠ 0) :
    Exec.run (EdgeRuntime.step layout) (r.calling event .checking)
        (List.replicate 5 (.advance r.calls.length 0)) =
      .some (({ r with
          pool := pool.reset layout handle
          queue := (r.queue.waitPush handle).1
          metrics := r.metrics.recordDropped } : EdgeRuntime).calling event
            (.returned .queueTimeout), List.replicate 5 .silent) := by
  refine Exec.run_cons.mpr ⟨_, _, _, step_checking accepting, ?_, rfl⟩
  refine Exec.run_cons.mpr ⟨_, _, _, step_allocating created some, ?_, rfl⟩
  refine Exec.run_cons.mpr ⟨_, _, _, step_timeout live full, ?_, rfl⟩
  refine Exec.run_cons.mpr ⟨_, _, _, step_releasing, ?_, rfl⟩
  exact Exec.run_cons.mpr ⟨_, _, _, step_dropping, rfl, rfl⟩

end Calls

section Publishers

variable {layout : Layout} {protection : ProtectionConfig} {notes : List Note} {r : EdgeRuntime}

/-- A started runtime between two calls, with no shutdown request so far. -/
structure Idle (layout : Layout) (protection : ProtectionConfig) (notes : List Note)
    (r : EdgeRuntime) : Prop where
  sound : Sound layout protection notes r
  started : r.start = some .returned
  unstopped : r.stop = none
  calls : ∀ call ∈ r.calls, call.step.isReturned = true
  control : r.control = .waiting
  sensor : r.sensor = .checking
  monitor : r.monitor = .sleeping
  calm : ∀ event ∈ pushedEvents notes, event.kind ≠ .shutdownRequested

/- Only the queue holds handles, and it is smaller than the pool. -/
theorem Idle.free (h : Idle layout protection notes r) : r.pool.freeHead ≠ kEventPoolCapacity := by
  intro used
  obtain ⟨backlog, inHand, carries⟩ := h.sound.carries
  have idle : r.calls.filterMap PublishCall.owned = [] := by
    rw [List.filterMap_eq_nil_iff]
    intro call member
    have done := h.calls call member
    obtain ⟨event, step⟩ := call
    cases step <;> first | rfl | contradiction
  have empty : inHand = none := by
    have held := carries.control
    rw [h.control] at held
    exact Option.map_eq_none_iff.mp held.symm
  have fits : backlog.length ≤ kEventQueueCapacity := by
    simpa using carries.queue.window.fits
  have owned := carries.owners.exhausted used
  rw [idle, empty] at owned
  exact absurd (owned.trans fits) (by decide)

theorem Idle.accepting (h : Idle layout protection notes r) : r.acceptingEvents = true :=
  h.sound.staged.gate _ h.started rfl (by simp [h.unstopped])

theorem Idle.creates (h : Idle layout protection notes r) (event : Event) :
    ∃ pool handle, r.pool.tryCreate layout (.ok ⟨event, 0⟩ : Except Empty PooledEvent) =
      (pool, .ok handle) ∧ handle.object ≠ 0 := by
  obtain ⟨backlog, inHand, carries⟩ := h.sound.carries
  obtain ⟨used, -⟩ | ⟨-, pool, handle, created, some, -⟩ :=
    carries.owners.tryCreate (ε := Empty) ⟨event, 0⟩
  · exact absurd used h.free
  · exact ⟨pool, handle, created, some⟩

theorem Idle.live (h : Idle layout protection notes r) : r.queue.closed = false :=
  h.sound.staged.open_queue h.unstopped

/- The runtime is idle again when one more call has returned. -/
theorem Idle.returned (h : Idle layout protection notes r) {event : Event}
    {result : PublishResult} {later : List Note}
    {pool : FixedObjectPool PooledEvent kEventPoolCapacity}
    {queue : BoundedQueue Handle kEventQueueCapacity} {metrics : RuntimeMetrics}
    (sound : Sound layout protection (notes ++ later)
      (({ r with pool, queue, metrics } : EdgeRuntime).calling event (.returned result)))
    (calm : ∀ event ∈ pushedEvents later, event.kind ≠ .shutdownRequested) :
    Idle layout protection (notes ++ later)
      (({ r with pool, queue, metrics } : EdgeRuntime).calling event (.returned result)) := by
  refine ⟨sound, h.started, h.unstopped, ?_, h.control, h.sensor, h.monitor, ?_⟩
  · intro call member
    obtain old | new := List.mem_append.mp member
    · exact h.calls call old
    · cases List.mem_singleton.mp new
      rfl
  · intro other member
    rw [Pipeline.pushedEvents_append] at member
    obtain old | new := List.mem_append.mp member
    · exact h.calm other old
    · exact calm other new

/-- A call is served while there is room. -/
theorem Idle.lands (h : Idle layout protection notes r)
    (room : r.queue.size < kEventQueueCapacity) (event : Event)
    (calm : event.kind ≠ .shutdownRequested) :
    ∃ r' later, Exec.run (EdgeRuntime.step layout) r
        (.publish event :: List.replicate 4 (.advance r.calls.length 0)) = some (r', later) ∧
      Idle layout protection (notes ++ later) r' ∧
      r'.queue.size = r.queue.size + 1 ∧ r'.calls.length = r.calls.length + 1 := by
  obtain ⟨pool, handle, created, some⟩ := h.creates event
  have made : EdgeRuntime.step layout r (.publish event) =
      .some (r.calling event .checking, .silent) := rfl
  have history := Exec.run_cons.mpr ⟨_, _, _, made,
    run_landing h.accepting h.live room created some, rfl⟩
  refine ⟨_, _, history, h.returned (h.sound.run history) ?_, rfl, by simp [calling]⟩
  intro other member
  cases List.mem_singleton.mp member
  exact calm

theorem Idle.fill (h : Idle layout protection notes r) (count : Nat)
    (room : r.queue.size + count ≤ kEventQueueCapacity) :
    ∃ r' later, Exec.run (EdgeRuntime.step layout) r (filling r.calls.length count) =
        some (r', later) ∧
      Idle layout protection (notes ++ later) r' ∧
      r'.queue.size = r.queue.size + count ∧ r'.calls.length = r.calls.length + count := by
  refine Exec.run_range
    (P := fun k later r' => Idle layout protection (notes ++ later) r' ∧
      r'.queue.size = r.queue.size + k ∧ r'.calls.length = r.calls.length + k)
    ⟨by simpa using h, rfl, rfl⟩ ?_
  rintro k later t bound ⟨idle, size, length⟩
  obtain ⟨r', more, next, idle', size', length'⟩ :=
    idle.lands (by omega) .resetRequested (by decide)
  rw [length] at next
  exact ⟨r', more, next, by simpa using idle', by omega, by omega⟩

/-- With the queue full the request of `stop` times out. -/
theorem Idle.timesOut (h : Idle layout protection notes r)
    (full : ¬ r.queue.size < kEventQueueCapacity) :
    ∃ r', Exec.run (EdgeRuntime.step layout) r (timingOut r.calls.length) =
        some (r', List.replicate 6 .silent) ∧
      r'.start = some .returned ∧ r'.stop = some { call := r.calls.length } ∧
      r'.hasReturned r.calls.length = true ∧ r'.sensor = .checking ∧ r'.monitor = .sleeping ∧
      r'.control = .waiting ∧ r'.queue.size = r.queue.size := by
  obtain ⟨pool, handle, created, some⟩ := h.creates .shutdownRequested
  have size : (r.queue.waitPush handle).1.size = r.queue.size := by
    rw [BoundedQueue.waitPush_full handle h.live full]
  have made : EdgeRuntime.step layout r .stop =
      .some (({ r with stop := .some { call := r.calls.length } } : EdgeRuntime).calling
        .shutdownRequested .checking, .silent) := by
    simp [EdgeRuntime.step, stopStep, h.started, h.unstopped, publish, Pipeline.call, calling]
  have history := Exec.run_cons.mpr ⟨_, _, _, made,
    run_missing h.accepting h.live full created some, rfl⟩
  refine ⟨_, history, h.started, rfl, ?_, h.sensor, h.monitor, h.control, size⟩
  simp [calling, Pipeline.hasReturned]

end Publishers

section Stopping

variable (layout : Layout) {r : EdgeRuntime}

theorem run_closing {index : Nat} (started : r.start = some .returned)
    (stop : r.stop = some { call := index }) (returned : r.hasReturned index = true)
    (sensor : r.sensor = .checking) (monitor : r.monitor = .sleeping) :
    ∃ r', Exec.run (EdgeRuntime.step layout) r closing = some (r', List.replicate 10 .silent) ∧
      r'.start = some .returned ∧ r'.stop = some { call := index, step := .joiningControl } ∧
      r'.queue = r.queue.close ∧ r'.control = r.control := by
  have first : EdgeRuntime.step layout r .stop =
      some ({ r with stop := some { call := index, step := .refusing } }, .silent) := by
    simp [EdgeRuntime.step, stopStep, stopRunning, started, stop, returned]
  obtain ⟨pipeline, hasSensor, running, halt, quiet, start, current, sensing, watching⟩ := r
  simp only at started stop sensor monitor
  subst started stop sensor monitor
  exact ⟨_, Exec.run_cons.mpr ⟨_, _, _, first, rfl, rfl⟩, rfl, rfl, rfl, rfl⟩

/-- The control loop takes the front of the queue through its five steps. -/
theorem run_lap {handle : Handle} {rest : List Handle} (stage : r.control = .waiting)
    (stores : r.queue.Stores (handle :: rest)) :
    ∃ r' event, Exec.run (EdgeRuntime.step layout) r (List.replicate 5 (.control 0)) =
        some (r', [.silent, .handled event, .silent, .silent, .silent]) ∧
      r'.control = .waiting ∧ r'.queue.Stores rest ∧ r'.queue.closed = r.queue.closed ∧
      r'.start = r.start ∧ r'.stop = r.stop := by
  obtain ⟨queue, popped, closed, stored⟩ := stores.waitPop_cons
  have first : EdgeRuntime.step layout r (.control 0) =
      some ({ r with queue, control := .popped handle }, .silent) := by
    simp [EdgeRuntime.step, Pipeline.controlLoop, stage, popped]
  exact ⟨_, _, Exec.run_cons.mpr ⟨_, _, _, first, rfl, rfl⟩, rfl, stored, closed, rfl, rfl⟩

theorem run_laps {items : List Handle} (stage : r.control = .waiting)
    (stores : r.queue.Stores items) :
    ∃ r' later, Exec.run (EdgeRuntime.step layout) r
        (List.replicate (5 * items.length) (.control 0)) = some (r', later) ∧
      pushedEvents later = [] ∧ r'.control = .waiting ∧ r'.queue.Stores [] ∧
      r'.queue.closed = r.queue.closed ∧ r'.start = r.start ∧ r'.stop = r.stop := by
  induction items generalizing r with
  | nil => exact ⟨r, [], rfl, rfl, stage, stores, rfl, rfl, rfl⟩
  | cons handle rest ih =>
    obtain ⟨m, event, lap, stage', stores', closed, start, stop⟩ := run_lap layout stage stores
    obtain ⟨r', later, next, silent, last, empty, closed', start', stop'⟩ := ih stage' stores'
    have split : 5 * (handle :: rest).length = 5 + 5 * rest.length := by
      rw [List.length_cons]
      omega
    rw [split, List.replicate_add]
    exact ⟨r', _, Exec.run_append lap next, (Pipeline.pushedEvents_append _ _).trans silent, last,
      empty, closed'.trans closed, start'.trans start, stop'.trans stop⟩

theorem run_draining {items : List Handle} (stage : r.control = .waiting)
    (stores : r.queue.Stores items) (shut : r.queue.closed = true) :
    ∃ r' later, Exec.run (EdgeRuntime.step layout) r (draining items.length) = some (r', later) ∧
      pushedEvents later = [] ∧ r'.control = .exited ∧ r'.start = r.start ∧ r'.stop = r.stop := by
  obtain ⟨m, later, laps, silent, stage, empty, closed, start, stop⟩ :=
    run_laps layout stage stores
  have last : EdgeRuntime.step layout m (.control 0) =
      some ({ m with control := .exited }, .silent) := by
    simp [EdgeRuntime.step, Pipeline.controlLoop, stage, empty.waitPop_nil, closed, shut]
  rw [draining, List.replicate_add]
  refine ⟨_, _, Exec.run_append laps (Exec.run_cons.mpr ⟨_, _, _, last, rfl, rfl⟩), ?_, rfl, start,
    stop⟩
  rw [Pipeline.pushedEvents_append, silent]
  rfl

theorem run_returning {c : StopCall} (started : r.start = some .returned)
    (stop : r.stop = some c) (joining : c.step = .joiningControl) (gone : r.control = .exited) :
    Exec.run (EdgeRuntime.step layout) r [.stop, .stop] =
      some ({ r with running := false, stop := some { c with step := .returned } },
        [.silent, .silent]) := by
  simp [Exec.run, EdgeRuntime.step, stopStep, stopRunning, started, stop, joining, gone]

end Stopping

/- The whole schedule, from a state with so many calls behind it and so much room. -/
def congestion (calls room : Nat) : List Label :=
  filling calls room ++ (timingOut (calls + room) ++
    (closing ++ (draining kEventQueueCapacity ++ [.stop, .stop])))

/-- From every idle state the shutdown request can be lost: `stop` returns, and
the machine has never been told. -/
theorem Idle.loses {layout : Layout} {protection : ProtectionConfig} {notes : List Note}
    {r : EdgeRuntime} (h : Idle layout protection notes r) :
    ∃ r' later c, Exec.run (EdgeRuntime.step layout) r
        (congestion r.calls.length (kEventQueueCapacity - r.queue.size)) = some (r', later) ∧
      r'.stop = some c ∧ c.step = .returned ∧ r'.machine.state ≠ .safeShutdown := by
  have fits : r.queue.size ≤ kEventQueueCapacity := by
    obtain ⟨backlog, inHand, carries⟩ := h.sound.carries
    rw [carries.queue.size]
    exact carries.queue.window.fits
  obtain ⟨r₁, later₁, filled, idle, size, length⟩ := h.fill (kEventQueueCapacity - r.queue.size)
    (by omega)
  obtain ⟨r₂, given, started, stop, returned, sensor, monitor, control, size'⟩ :=
    idle.timesOut (by omega)
  obtain ⟨r₃, closed, started, stop, queue, control'⟩ :=
    run_closing layout started stop returned sensor monitor
  obtain ⟨backlog, inHand, carries⟩ := (idle.sound.run given).carries
  have full : (backlog.map Prod.fst).length = kEventQueueCapacity := by
    have stored : r₂.queue.size = (backlog.map Prod.fst).length := carries.queue.size
    omega
  obtain ⟨r₄, later₄, drained, silent, gone, started', stop'⟩ :=
    run_draining layout (control'.trans control) (queue ▸ carries.queue.close) (by rw [queue]; rfl)
  have last := run_returning layout (started'.trans started) (stop'.trans stop) rfl gone
  rw [full] at drained
  rw [length] at given
  have history := Exec.run_append filled (Exec.run_append given (Exec.run_append closed
    (Exec.run_append drained last)))
  have sound := h.sound.run history
  refine ⟨_, _, _, history, rfl, rfl, ?_⟩
  rw [ne_eq, sound.safeShutdown_iff gone]
  rintro ⟨event, member, kind⟩
  simp only [Pipeline.pushedEvents_append, silent] at member
  refine idle.calm event ?_ kind
  rw [Pipeline.pushedEvents_append]
  simpa [pushedEvents, Note.pushedEvent] using member

theorem run_starting :
    ∃ r notes, Exec.run (EdgeRuntime.step unitLayout) (initial {} true) starting = some (r, notes) ∧
      Idle unitLayout {} notes r ∧ r.calls.length = 2 ∧ r.queue.size = 2 := by
  have outcome : (Exec.run (EdgeRuntime.step unitLayout) (initial {} true) starting).any
      (fun (r, notes) => r.start = some .returned ∧ r.stop = none ∧ r.control = .waiting ∧
        r.sensor = .checking ∧ r.monitor = .sleeping ∧ r.queue.size = 2 ∧ r.calls.length = 2 ∧
        (∀ call ∈ r.calls, call.step.isReturned = true) ∧
        ∀ event ∈ pushedEvents notes, event.kind ≠ .shutdownRequested) = true := by
    decide +kernel
  obtain ⟨⟨r, notes⟩, history, facts⟩ := (Option.any_eq_true _ _).mp outcome
  obtain ⟨started, unstopped, control, sensor, monitor, size, length, calls, calm⟩ :=
    of_decide_eq_true facts
  exact ⟨r, notes, history, ⟨run_sound history, started, unstopped, calls, control, sensor, monitor,
    calm⟩, length, size⟩

/-- The queue is filled behind the two events of `start`, and `stop` returns with
the machine still running. -/
theorem shutdown_request_lost :
    ∃ r notes c, Exec.run (EdgeRuntime.step unitLayout) (initial {} true)
        (starting ++ congestion 2 126) = some (r, notes) ∧
      r.stop = some c ∧ c.step = .returned ∧ r.machine.state ≠ .safeShutdown := by
  obtain ⟨r, notes, started, idle, calls, size⟩ := run_starting
  obtain ⟨r', later, c, history, stop, returned, lost⟩ := idle.loses
  rw [calls, size] at history
  exact ⟨r', notes ++ later, c, Exec.run_append started history, stop, returned, lost⟩

end EdgeSentinel.EdgeRuntime
