import EdgeSentinel.Daemon.Callers
import EdgeSentinel.Runtime.Metrics

/-! What `publish` answers in the daemon. No caller finds the pool exhausted or the queue
closed, and only the sensor's thread is ever turned away, so the one way for a command to
lose its event is a queue that stays full. -/
namespace EdgeSentinel

/-- While the queue is open, a push lands or finds it full. -/
theorem Pipeline.advance_pushing {layout : Layout} {p q : Pipeline} {index now : Nat}
    {call : PublishCall} {note : Note} {handle : Handle} (stage : call.step = .pushing handle)
    (live : p.queue.closed = false) (moved : p.advance layout index now call = some (q, note)) :
    ∃ step, q.calls = p.calls.set index { call with step } ∧
      (step = .recording ∨
        step = .releasing handle .queueTimeout ∧ kEventQueueCapacity ≤ p.queue.size) := by
  by_cases room : p.queue.size < kEventQueueCapacity
  · simp only [advance, stage, BoundedQueue.waitPush_room handle live room] at moved
    cases moved
    exact ⟨_, rfl, .inl rfl⟩
  · simp only [advance, stage, BoundedQueue.waitPush_full handle live room] at moved
    cases moved
    exact ⟨_, rfl, .inr ⟨rfl, Nat.le_of_not_lt room⟩⟩

namespace Daemon

/-- What holds of the daemon's threads and of the calls they make. -/
structure Regular (layout : Layout) (notes : List Note) (d : Daemon) : Prop where
  sound : EdgeRuntime.Sound layout {} notes d.runtime
  threads : d.runtime.Threads
  ordered : Ordered d
  waits : Waits d

section Invariant

variable {layout : Layout} {fromChars : List UInt8 → Ipc.FromChars} {format : Double → List UInt8}
  {d d' : Daemon} {note : Note} {notes : List Note} {label : DaemonLabel}

theorem regular_initial : Regular layout [] initial :=
  ⟨EdgeRuntime.sound_initial, EdgeRuntime.threads_initial, ordered_initial, waits_initial⟩

theorem Projects.threads {r r' : EdgeRuntime} (moved : Projects layout r r' note label)
    (threads : r.Threads) (staged : r.Staged) : r'.Threads := by
  cases moved with
  | rests same silent => exact same ▸ threads
  | moves inner moved faithful => exact threads.step staged moved

theorem Regular.step (h : Regular layout notes d)
    (moved : d.step layout fromChars format label = some (d', note)) :
    Regular layout (notes ++ [note]) d' := by
  have projects := (step_cases moved).1
  exact ⟨projects.sound h.sound, projects.threads h.threads h.sound.staged, h.ordered.step moved,
    h.waits.step h.ordered h.threads moved⟩

theorem run_regular {labels : List DaemonLabel}
    (history : Exec.run (Daemon.step layout fromChars format) initial labels = some (d, notes)) :
    Regular layout notes d := by
  refine Exec.run_induction (P := fun _ notes d => Regular layout notes d) regular_initial ?_
    history
  intro _ notes t label u note regular moved
  exact regular.step moved

/-- Where the main thread waits for a call, the queue is open. -/
theorem Regular.main_open (h : Regular layout notes d) {index : Nat}
    (awaited : d.awaits .main = some index) :
    d.runtime.acceptingEvents = true ∧ d.runtime.queue.closed = false := by
  have gate := h.sound.staged.gate
  cases stage : d.main with
  | starting =>
    rw [awaits_starting stage] at awaited
    obtain ⟨s, started, waiting⟩ := Option.bind_eq_some_iff.mp awaited
    have unstopped := h.ordered.unstopped (by rw [stage]; rfl)
    refine ⟨gate s started ?_ (by simp [unstopped]), h.sound.staged.open_queue unstopped⟩
    cases s <;> first | rfl | contradiction
  | awaiting call =>
    have unstopped := h.ordered.unstopped (by rw [stage]; rfl)
    have started := h.ordered.begun (by simp [stage])
    exact ⟨gate _ started rfl (by simp [unstopped]), h.sound.staged.open_queue unstopped⟩
  | stopping =>
    rw [awaits_stopping stage] at awaited
    obtain ⟨c, current, waiting⟩ := Option.bind_eq_some_iff.mp awaited
    have publishing : c.step = .publishing := (Option.ite_none_right_eq_some.mp waiting).1
    have started := h.ordered.begun (by simp [stage])
    constructor
    · apply gate _ started rfl
      intro c' current'
      cases current.symm.trans current'
      rw [publishing]
      rfl
    · rw [← Bool.not_eq_true, h.sound.staged.closed]
      rintro ⟨c', current', shut⟩
      cases current.symm.trans current'
      rw [publishing] at shut
      contradiction
  | _ => simp [awaits, stage] at awaited

theorem Regular.server_open (h : Regular layout notes d) {index : Nat}
    (awaited : d.awaits .server = some index) :
    d.runtime.acceptingEvents = true ∧ d.runtime.queue.closed = false := by
  have there : ¬ (d.server = .absent ∨ d.server = .exited) := by
    rintro (stage | stage) <;> simp [awaits, stage, ServerStep.awaited] at awaited
  have notLast : d.main.isLast = false :=
    Bool.eq_false_iff.mpr fun last => there (h.ordered.gone last)
  have unstopped := h.ordered.unstopped notLast
  have started : d.runtime.start = some .returned := by
    apply h.ordered.begun
    intro stage
    exact there (.inl (h.ordered.early (by rw [stage]; rfl)))
  exact ⟨h.sound.staged.gate _ started rfl (by simp [unstopped]),
    h.sound.staged.open_queue unstopped⟩

/-- `stop` closes the queue behind the sensor's thread. -/
theorem Regular.sensor_open (h : Regular layout notes d) {index : Nat}
    (awaited : d.awaits .sensor = some index) : d.runtime.queue.closed = false := by
  rw [← Bool.not_eq_true, h.sound.staged.closed]
  rintro ⟨c, current, shut⟩
  have gone := h.threads.sensorGone c current (by
    cases stage : c.step <;> simp_all [StopStep.hasClosed, StopStep.joinedSensor,
      StopStep.stopsMonitor, StopStep.stopsSensor])
  simp [awaits, gone, SensorStep.awaited] at awaited

/-- The sensor's thread begins behind the opening of the gate, so if it finds it closed, that
was `stop`. -/
theorem Regular.sensor_refused (h : Regular layout notes d) {index : Nat}
    (awaited : d.awaits .sensor = some index) (refusing : d.runtime.acceptingEvents = false) :
    ∃ c, d.runtime.stop = some c ∧ c.step.isOpen = false := by
  by_contra unstopped
  have spawned : ¬ ∀ s, d.runtime.start = some s → s.hasSensor = false := by
    intro early
    have absent := h.threads.unspawned early
    simp [awaits, absent, SensorStep.awaited] at awaited
  push Not at spawned
  obtain ⟨s, started, sensing⟩ := spawned
  have opened : s.isOpen = true := by
    cases s <;> simp_all [StartStep.hasSensor, StartStep.isOpen]
  have kept : ∀ c, d.runtime.stop = some c → c.step.isOpen = true := by
    intro c current
    by_contra shut
    exact unstopped ⟨c, current, Bool.eq_false_iff.mpr shut⟩
  rw [h.sound.staged.gate s started opened kept] at refusing
  contradiction

/-- A call in flight finds the queue open. The gate it may find closed with a sample, after
`stop` has closed it. -/
theorem Regular.open_for (h : Regular layout notes d) {index : Nat} {call : PublishCall}
    (here : d.runtime.calls[index]? = some call) (moving : call.step.isReturned = false) :
    d.runtime.queue.closed = false ∧
      (d.runtime.acceptingEvents = false → call.event.kind = .sensorSample ∧
        ∃ c, d.runtime.stop = some c ∧ c.step.isOpen = false) := by
  obtain ⟨caller, awaited⟩ := h.waits.heard index call here moving
  obtain ⟨call', there, kind⟩ := h.waits.known caller index awaited
  cases here.symm.trans there
  cases caller with
  | main =>
    obtain ⟨accepting, live⟩ := h.main_open awaited
    exact ⟨live, fun refusing => absurd (accepting.symm.trans refusing) (by simp)⟩
  | sensor => exact ⟨h.sensor_open awaited, fun refusing => ⟨kind.mpr rfl,
      h.sensor_refused awaited refusing⟩⟩
  | server =>
    obtain ⟨accepting, live⟩ := h.server_open awaited
    exact ⟨live, fun refusing => absurd (accepting.symm.trans refusing) (by simp)⟩

theorem Regular.inFlight_le (h : Regular layout notes d) : d.runtime.inFlight ≤ 3 :=
  Attended.inFlight_le h.waits

/- In a step of its own, the call has found the queue full. -/
def Crowded (moves : List (Daemon × DaemonLabel × Daemon)) (i : Nat) : Prop :=
  ∃ t now u, (t, .advance i now, u) ∈ moves ∧ kEventQueueCapacity ≤ t.runtime.queue.size

/- In a step of its own, the call has found the gate closed, and `stop` was past closing it. -/
def Refused (moves : List (Daemon × DaemonLabel × Daemon)) (i : Nat) : Prop :=
  ∃ t now u, (t, .advance i now, u) ∈ moves ∧ t.runtime.acceptingEvents = false ∧
    ∃ c, t.runtime.stop = some c ∧ c.step ≠ .publishing ∧ c.step ≠ .refusing

/- What `publish` may answer to a thread of the daemon. -/
def Answers (moves : List (Daemon × DaemonLabel × Daemon)) (i : Nat) (event : Event) :
    PublishResult → Prop
  | .published => True
  | .queueTimeout => Crowded moves i
  | .notRunning => event.kind = .sensorSample ∧ Refused moves i
  | .poolExhausted | .queueFull | .queueClosed => False

/-- No allocation has failed, and what the calls report is an answer. -/
structure Delivering (moves : List (Daemon × DaemonLabel × Daemon)) (r : EdgeRuntime) : Prop where
  unexhausted : EdgeRuntime.Unexhausted r.toPipeline
  calls : ∀ (i : Nat) call result, r.calls[i]? = some call →
    EdgeRuntime.verdict call.step = some result → Answers moves i call.event result

variable {moves : List (Daemon × DaemonLabel × Daemon)}

theorem delivering_initial : Delivering [] initial.runtime := by
  refine ⟨EdgeRuntime.unexhausted_start, ?_⟩
  intro i call result absent
  contradiction

theorem Answers.later {move : Daemon × DaemonLabel × Daemon} {i : Nat} {event : Event}
    {result : PublishResult} (h : Answers moves i event result) :
    Answers (moves ++ [move]) i event result := by
  cases result with
  | queueTimeout =>
    obtain ⟨t, now, u, member, full⟩ := h
    exact ⟨t, now, u, List.mem_append_left _ member, full⟩
  | notRunning =>
    obtain ⟨sample, t, now, u, member, refused⟩ := h
    exact ⟨sample, t, now, u, List.mem_append_left _ member, refused⟩
  | _ => exact h

/-- One step of a call of `publish`. -/
theorem Regular.answers (h : Regular layout notes d) (u : Daemon) {index now : Nat}
    {call : PublishCall} {q : Pipeline} (here : d.runtime.calls[index]? = some call)
    (answers : ∀ result, EdgeRuntime.verdict call.step = some result →
      Answers moves index call.event result)
    (moved : d.runtime.advance layout index now call = some (q, note))
    (unexhausted : EdgeRuntime.Unexhausted q) :
    ∃ step, q.calls = d.runtime.calls.set index { call with step } ∧
      ∀ result, EdgeRuntime.verdict step = some result →
        Answers (moves ++ [(d, .advance index now, u)]) index call.event result := by
  have advances := Pipeline.advance_cases moved
  obtain ⟨live, gate⟩ := h.open_for here advances.calls.1
  cases advances with
  | admitted stage accepting => exact ⟨_, rfl, by rintro _ ⟨⟩⟩
  | turnedAway stage refusing =>
    refine ⟨_, rfl, ?_⟩
    rintro result ⟨⟩
    obtain ⟨sample, c, current, shut⟩ := gate refusing
    refine ⟨sample, d, now, u, List.mem_append_right _ (List.mem_singleton.mpr rfl), refusing, c,
      current, ?_, ?_⟩
    · exact fun stage => by simp [stage, StopStep.isOpen] at shut
    · exact fun stage => by simp [stage, StopStep.isOpen] at shut
  | allocated stage created some => exact ⟨_, rfl, by rintro _ ⟨⟩⟩
  | exhausted stage created none =>
    have there := (Recorded.getElem?_move here (.dropping .poolExhausted) index).trans (if_pos rfl)
    exact absurd rfl (unexhausted.calls _ (List.mem_of_getElem? there))
  | pushed stage landed => exact ⟨_, rfl, by rintro _ ⟨⟩⟩
  | refused stage missed other failed =>
    obtain ⟨step, calls, rfl | ⟨rfl, full⟩⟩ := Pipeline.advance_pushing stage live moved
    · exact ⟨_, calls, by rintro _ ⟨⟩⟩
    · refine ⟨_, calls, ?_⟩
      rintro result ⟨⟩
      exact ⟨d, now, u, List.mem_append_right _ (List.mem_singleton.mpr rfl), full⟩
  | recorded stage =>
    refine ⟨_, rfl, ?_⟩
    rintro result ⟨⟩
    trivial
  | _ stage =>
    refine ⟨_, rfl, ?_⟩
    rintro result ⟨⟩
    exact (answers _ (by rw [stage]; rfl)).later

/-- A step that moves no call of `publish`. -/
theorem Delivering.frame (h : Delivering moves d.runtime)
    (unexhausted : EdgeRuntime.Unexhausted d'.runtime.toPipeline)
    (calls : ∃ more : List Event,
      d'.runtime.calls = d.runtime.calls ++ more.map fun event => { event := event }) :
    Delivering (moves ++ [(d, label, d')]) d'.runtime := by
  refine ⟨unexhausted, ?_⟩
  obtain ⟨more, calls⟩ := calls
  intro i call result here verdict
  rw [calls] at here
  rcases Nat.lt_or_ge i d.runtime.calls.length with old | new
  · rw [List.getElem?_append_left old] at here
    exact (h.calls i call result here verdict).later
  · rw [List.getElem?_append_right new] at here
    obtain ⟨event, -, rfl⟩ := List.mem_map.mp (List.mem_of_getElem? here)
    contradiction

theorem Delivering.step (h : Delivering moves d.runtime) (regular : Regular layout notes d)
    (moved : d.step layout fromChars format label = some (d', note)) :
    Delivering (moves ++ [(d, label, d')]) d'.runtime := by
  cases (step_cases moved).1 with
  | rests same silent =>
    have calls : d'.runtime.calls = d.runtime.calls ++ [] := by rw [same, List.append_nil]
    exact h.frame (same ▸ h.unexhausted) ⟨[], calls⟩
  | moves inner moved faithful =>
    have unexhausted : EdgeRuntime.Unexhausted d'.runtime.toPipeline := by
      apply h.unexhausted.flow ?_ (regular.sound.flow moved)
      intro index call here stage
      exact regular.sound.free_slot here stage (regular.inFlight_le.trans (by decide))
    cases EdgeRuntime.step_acts regular.sound.staged moved with
    | @advances index now call here advanced =>
      cases faithful index now rfl
      obtain ⟨step, calls, answers⟩ := regular.answers d' here
        (fun result => h.calls index call result here) advanced unexhausted
      refine ⟨unexhausted, ?_⟩
      intro i call' result there verdict
      rw [calls, Recorded.getElem?_move here] at there
      split at there
      · rename_i same
        cases there
        exact same ▸ answers result verdict
      · exact (h.calls i call' result there verdict).later
    | controls controlled =>
      exact h.frame unexhausted ⟨[], controlled.frame.1.trans (List.append_nil _).symm⟩
    | aside other silent aside => exact h.frame unexhausted aside.calls

theorem run_delivering {labels : List DaemonLabel}
    (history : Exec.run (Daemon.step layout fromChars format) initial labels = some (d, notes)) :
    Delivering (Exec.moves (Daemon.step layout fromChars format) initial labels) d.runtime := by
  refine Exec.past_induction
    (P := fun labels _ (d : Daemon) => Delivering
      (Exec.moves (Daemon.step layout fromChars format) initial labels) d.runtime)
    delivering_initial ?_ history
  intro labels notes t label u note past delivering moved
  rw [Exec.moves_concat past moved]
  exact delivering.step (run_regular past) moved

end Invariant

/-- In every run of the daemon at most three calls of `publish` are in flight, no
allocation fails, and a call that has returned was published, or found the queue full in
a step of its own, or had a sample for a gate that `stop` had closed by then. -/
theorem publish_answers (layout : Layout) (fromChars : List UInt8 → Ipc.FromChars)
    (format : Double → List UInt8) (labels : List DaemonLabel) (d : Daemon) (notes : List Note)
    (history : Exec.run (Daemon.step layout fromChars format) initial labels = some (d, notes)) :
    d.runtime.inFlight ≤ 3 ∧ d.runtime.pool.stats.allocationFailures = 0 ∧
      ∀ (i : Nat) call result, d.runtime.calls[i]? = some call → call.step = .returned result →
        Answers (Exec.moves (Daemon.step layout fromChars format) initial labels) i call.event
          result := by
  have delivering := run_delivering history
  refine ⟨(run_regular history).inFlight_le, delivering.unexhausted.failures, ?_⟩
  intro i call result here returned
  exact delivering.calls i call result here (by rw [returned]; rfl)

theorem publish_answers_opening :
    ∃ d notes call, Exec.run (Daemon.step EdgeRuntime.unitLayout noNumber noText) initial
        opening = some (d, notes) ∧
      d.runtime.calls[1]? = some call ∧ call.step = .returned .published ∧
      d.runtime.inFlight ≤ 3 ∧ d.runtime.pool.stats.allocationFailures = 0 := by
  have outcome : (Exec.run (Daemon.step EdgeRuntime.unitLayout noNumber noText) initial
      opening).any (fun (d, _) => d.runtime.calls[1]?.any (·.step = .returned .published)) =
        true := by
    decide +kernel
  obtain ⟨⟨d, notes⟩, history, last⟩ := (Option.any_eq_true _ _).mp outcome
  obtain ⟨call, here, returned⟩ := (Option.any_eq_true _ _).mp last
  obtain ⟨few, failures, -⟩ :=
    publish_answers EdgeRuntime.unitLayout noNumber noText opening d notes history
  exact ⟨d, notes, call, history, here, of_decide_eq_true returned, few, failures⟩

end Daemon

end EdgeSentinel
