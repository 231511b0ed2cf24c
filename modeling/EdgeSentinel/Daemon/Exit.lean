import EdgeSentinel.Daemon.Delivery
import EdgeSentinel.Runtime.Tally
import EdgeSentinel.Runtime.Termination

/-! The end of the daemon. After a signal its own threads can always bring it there, from
whatever state it is in, and then nothing is left over: every thread is gone, every call
has returned, and every event that was pushed has been handled and counted. -/
namespace EdgeSentinel

/- What `start` has ahead of it, with the work of the calls and threads it will make. -/
def StartStep.ahead : StartStep → Nat
  | .opening => 31
  | .raising => 30
  | .spawningControl => 29
  | .callingStartup => 27
  | .awaitingStartup _ => 16
  | .awaitingSelfTest _ => 5
  | .spawningSensor => 4
  | .spawningMonitor => 2
  | .returned => 0

/- The server's thread on its way out. -/
def ServerStep.ahead : ServerStep → Nat
  | .absent | .exited => 0
  | .checking => 1
  | .accepting | .responding _ _ => 2
  | .awaitingSelfTest _ _ | .awaitingShutdown _ => 3
  | .awaitingReset _ => 14
  | .building _ => 25

def MainStep.ahead : MainStep → Nat
  | .starting => 19
  | .startingServer => 18
  | .watching => 16
  | .leaving => 15
  | .awaiting _ => 4
  | .stoppingServer => 3
  | .joiningServer => 2
  | .stopping => 1
  | .exited => 0

/- A step of one of the daemon's own threads, that needs no client. -/
def DaemonLabel.isOwn : DaemonLabel → Bool
  | .signal | .serverFails | .accept _ => false
  | _ => true

namespace EdgeRuntime

/- What is ahead of the runtime up to the return of `stop`. -/
def ahead (r : EdgeRuntime) : Nat :=
  r.start.elim 32 StartStep.ahead + r.stop.elim 21 (fun _ => 0) + r.work

section Steps

variable {layout : Layout} {protection : ProtectionConfig} {notes : List Note}
  {r r' : EdgeRuntime} {note : Note}

theorem ahead_less (start : r'.start = r.start) (stop : r'.stop.isNone = r.stop.isNone)
    (less : r'.work < r.work) : r'.ahead < r.ahead := by
  have same : r'.stop.elim 21 (fun _ => 0) = r.stop.elim 21 (fun _ => 0) := by
    cases before : r.stop <;> cases after : r'.stop <;> simp_all
  rw [ahead, ahead, start, same]
  omega

/- One step of `start`, with the work that it makes. -/
theorem ahead_rise {next : StartStep} (price : Nat) (start : r'.start = some next)
    (stop : r'.stop = r.stop) (work : r'.work ≤ r.work + price)
    (less : next.ahead + price < r.start.elim 32 StartStep.ahead) : r'.ahead < r.ahead := by
  rw [ahead, ahead, start, stop, Option.elim_some]
  omega

theorem Starts.ahead (moved : Starts r r') (under : r.start ≠ some .returned) :
    r'.ahead < r.ahead := by
  cases moved with
  | enters stage => exact ahead_rise 0 rfl rfl (Nat.le_refl _) (by rw [stage]; decide)
  | opens stage => exact ahead_rise 0 rfl rfl (Nat.le_refl _) (by rw [stage]; decide)
  | raises stage => exact ahead_rise 0 rfl rfl (Nat.le_refl _) (by rw [stage]; decide)
  | spawnsControl stage =>
    refine ahead_rise 1 rfl rfl ?_ (by rw [stage]; decide)
    simp only [EdgeRuntime.work, Pipeline.work, ControlStep.work]
    omega
  | callsStartup stage =>
    refine ahead_rise 10 rfl rfl (Nat.le_of_eq (r.work_publish .startup)) ?_
    rw [stage]
    exact of_decide_eq_true rfl
  | callsSelfTest stage returned =>
    refine ahead_rise 10 rfl rfl (Nat.le_of_eq (r.work_publish .selfTestPassed)) ?_
    rw [stage]
    exact of_decide_eq_true rfl
  | tested stage returned =>
    refine ahead_rise 0 rfl rfl (Nat.le_refl _) ?_
    rw [stage]
    exact of_decide_eq_true rfl
  | spawnsSensor stage =>
    refine ahead_rise 1 rfl rfl ?_ (by rw [stage]; decide)
    simp only [EdgeRuntime.work, SensorStep.work]
    omega
  | spawnsMonitor stage =>
    refine ahead_rise 1 rfl rfl ?_ (by rw [stage]; decide)
    simp only [EdgeRuntime.work, MonitorStep.work]
    omega
  | again stage => exact absurd stage under

/- The request of `stop` costs less than `stop` itself. -/
theorem ahead_requests (unstopped : r.stop = none) :
    ({ r.publish .shutdownRequested with stop := some { call := r.calls.length } } :
      EdgeRuntime).ahead < r.ahead := by
  have more := work_requests unstopped
  have start : (r.publish .shutdownRequested).start = r.start := rfl
  rw [ahead, ahead, more, unstopped, Option.elim_none, Option.elim_some]
  dsimp only
  rw [start]
  omega

theorem ahead_publish (r : EdgeRuntime) (event : Event) :
    (r.publish event).ahead = r.ahead + 10 := by
  rw [ahead, ahead, work_publish]
  rfl

/-- Every step of another thread leaves `start` alone and `stop` under way. -/
theorem step_lifecycle {label : Label} (other : label ≠ .start)
    (moved : r.step layout label = some (r', note)) {c : StopCall} (current : r.stop = some c) :
    r'.start = r.start ∧ r'.stop.isNone = r.stop.isNone := by
  constructor
  · cases step_cases moved with
    | starts taken => exact absurd rfl other
    | stops current' taken => exact taken.start
    | senses taken => exact taken.start
    | monitors taken => exact taken.start
    | _ => rfl
  · rcases step_stop moved current with same | taken
    · rw [same, current]
    · obtain ⟨c', current', -⟩ := Option.map_eq_some_iff.mp (taken.calls current).2
      rw [current', current]
      rfl

/-- A step of the sensor's thread towards its end does not depend on the sample. -/
theorem sensorLoop_any {sample : SensorSample} (moved : r.sensorLoop sample = some r')
    (less : r'.work < r.work) (other : SensorSample) : r.sensorLoop other = some r' := by
  cases sensorLoop_cases moved with
  | exits stage stopped =>
    rcases stage with stage | stage <;> simp [sensorLoop, stage, stopped]
  | publishes stage present running =>
    have more := r.work_publish (.sensorSample sample)
    simp only [EdgeRuntime.work, EdgeRuntime.publish, SensorStep.work, stage] at more less
    omega
  | skips stage missing running => simp [EdgeRuntime.work, stage, SensorStep.work] at less
  | published stage returned => simp [sensorLoop, stage, returned]
  | wakes stage running => simp [EdgeRuntime.work, stage, SensorStep.work] at less

/- `start` is held up by nothing but the calls that it makes. -/
theorem startStep_waits (held : r.startStep = none) :
    ∃ stage index event, r.start = some stage ∧ stage.awaited = some (index, event) ∧
      r.hasReturned index = false := by
  unfold startStep at held
  split at held
  case h_6 index stage =>
    refine ⟨_, index, .startup, stage, rfl, ?_⟩
    simpa using held
  case h_7 index stage =>
    refine ⟨_, index, .selfTestPassed, stage, rfl, ?_⟩
    simpa using held
  all_goals contradiction

end Steps

end EdgeRuntime

theorem Pipeline.hasReturned_eq (p : Pipeline) (index : Nat) :
    p.hasReturned index = (p.result index).isSome := by
  unfold Pipeline.hasReturned Pipeline.result
  cases p.calls[index]? with
  | none => rfl
  | some call =>
    obtain ⟨event, step⟩ := call
    cases step <;> rfl

namespace Daemon

def ahead (d : Daemon) : Nat := d.main.ahead + d.server.ahead + d.runtime.ahead

/- The second call of a reset is made when the first has returned. -/
def Answered (d : Daemon) : Prop :=
  ∀ reset index, d.server = .awaitingSelfTest reset index →
    ∃ result, d.runtime.result reset = some result

/-- A signal has come. -/
structure Leaving (layout : Layout) (notes : List Note) (d : Daemon) : Prop where
  regular : Regular layout notes d
  answered : Answered d
  requested : d.stopRequested = true

/- A step of the daemon's own threads that comes closer to its end. -/
def Closer (layout : Layout) (fromChars : List UInt8 → Ipc.FromChars)
    (format : Double → List UInt8) (d : Daemon) : Prop :=
  ∃ label u note, label.isOwn = true ∧ d.step layout fromChars format label = some (u, note) ∧
    u.ahead < d.ahead

section Steps

variable {layout : Layout} {fromChars : List UInt8 → Ipc.FromChars} {format : Double → List UInt8}
  {d d' : Daemon} {note : Note} {notes : List Note} {label : DaemonLabel}

theorem Regular.reached (h : Regular layout notes d) : Reached layout notes d :=
  ⟨h.sound, h.ordered.early⟩

theorem Leads.server (moved : Leads d d') : d'.server = d.server ∨ d'.server = .checking := by
  cases moved with
  | spawns stage => exact .inr rfl
  | _ => exact .inl rfl

theorem Answered.step (h : Answered d) (regular : Regular layout notes d)
    (moved : d.step layout fromChars format label = some (d', note)) : Answered d' := by
  intro reset index there
  have same : d'.server = d.server → ∃ result, d'.runtime.result reset = some result := by
    intro same
    obtain ⟨result, before⟩ := h reset index (same.symm.trans there)
    exact ⟨result, regular.reached.keeps moved before⟩
  cases step_steps moved with
  | leads taken =>
    rcases taken.server with rest | fresh
    · exact same rest
    · rw [fresh] at there
      contradiction
  | polls stage =>
    dsimp only at there
    split at there <;> contradiction
  | accepts stage entered =>
    rcases entered with rfl | ⟨response, rfl⟩ | ⟨command, rfl⟩ <;> contradiction
  | builds stage built =>
    cases built with
    | _ => contradiction
  | @proceeds first result stage returned =>
    cases there
    exact ⟨result, regular.reached.keeps moved returned⟩
  | idles stage => contradiction
  | reports stage earlier returned => contradiction
  | closes stage returned => contradiction
  | responds stage => contradiction
  | _ => exact same rfl

theorem requested_step (requested : d.stopRequested = true)
    (moved : d.step layout fromChars format label = some (d', note)) :
    d'.stopRequested = true := by
  cases step_steps moved with
  | leads taken =>
    cases taken with
    | _ => exact requested
  | builds stage built =>
    cases built with
    | _ => exact requested
  | signals => rfl
  | _ => exact requested

theorem Leaving.step (h : Leaving layout notes d)
    (moved : d.step layout fromChars format label = some (d', note)) :
    Leaving layout (notes ++ [note]) d' :=
  ⟨h.regular.step moved, h.answered.step h.regular moved, requested_step h.requested moved⟩

/- The runtime moves and the daemon with it. -/
theorem ahead_runtime {r : EdgeRuntime} (less : r.ahead < d.runtime.ahead) :
    ({ d with runtime := r } : Daemon).ahead < d.ahead := by
  simp only [ahead]
  omega

/-- A call that a thread waits for can move. -/
theorem Regular.advances (h : Regular layout notes d) {caller : Caller} {index : Nat}
    (awaited : d.awaits caller = some index) (waiting : d.runtime.hasReturned index = false) :
    Closer layout fromChars format d := by
  obtain ⟨call, here, -⟩ := h.waits.known caller index awaited
  have inside := (List.getElem?_eq_some_iff.mp here).1
  obtain ⟨r, note, moved, less⟩ := h.sound.call_enabled inside waiting
  refine ⟨.advance index 0, { d with runtime := r }, note, rfl, ?_, ?_⟩
  · simp [Daemon.step, runtimeStep, moved]
  · apply ahead_runtime
    cases EdgeRuntime.step_cases moved with
    | advances here taken => exact EdgeRuntime.ahead_less rfl rfl less

/-- Once told to stop, the server's thread comes closer to its end with every step. -/
theorem serverStep_ahead (layout : Layout) (told : d.serverStop = true)
    (moved : d.serverStep fromChars format = some d') : d'.ahead < d.ahead := by
  have steps : Steps layout fromChars d .serve d' .silent := serverStep_steps moved
  cases steps with
  | polls stage => simp [ahead, stage, told, ServerStep.ahead]
  | builds stage built =>
    cases built with
    | resets reset =>
      have more := d.runtime.ahead_publish .resetRequested
      simp only [ahead, publish, more, stage, ServerStep.ahead]
      omega
    | shutsDown other =>
      have more := d.runtime.ahead_publish .shutdownRequested
      simp only [ahead, publish, more, stage, ServerStep.ahead]
      omega
    | _ => simp [ahead, respond, stage, ServerStep.ahead]
  | proceeds stage returned =>
    have more := d.runtime.ahead_publish .selfTestPassed
    simp only [ahead, publish, more, stage, ServerStep.ahead]
    omega
  | idles stage => simp [ahead, stage, ServerStep.ahead]
  | reports stage earlier returned => simp [ahead, respond, stage, ServerStep.ahead]
  | closes stage returned => simp [ahead, respond, stage, ServerStep.ahead]
  | responds stage => simp [ahead, stage, ServerStep.ahead]

theorem Leaving.serves (h : Leaving layout notes d) (told : d.serverStop = true)
    (there : d.server ≠ .absent ∧ d.server ≠ .exited) : Closer layout fromChars format d := by
  have moves : (d.serverStep fromChars format).isSome = true →
      Closer layout fromChars format d := by
    intro enabled
    obtain ⟨u, served⟩ := Option.isSome_iff_exists.mp enabled
    exact ⟨.serve, u, .silent, rfl, by simp [Daemon.step, served],
      serverStep_ahead layout told served⟩
  have waits : ∀ index, d.awaits .server = some index → d.runtime.result index = none →
      Closer layout fromChars format d := by
    intro index awaited waiting
    apply h.regular.advances awaited
    rw [Pipeline.hasReturned_eq, waiting]
    rfl
  cases stage : d.server with
  | absent => exact absurd stage there.1
  | exited => exact absurd stage there.2
  | awaitingReset index =>
    cases returned : d.runtime.result index with
    | none => exact waits index (by simp [awaits, stage, ServerStep.awaited]) returned
    | some first => exact moves (by simp [serverStep, stage, returned])
  | awaitingSelfTest reset index =>
    obtain ⟨first, earlier⟩ := h.answered reset index stage
    cases returned : d.runtime.result index with
    | none => exact waits index (by simp [awaits, stage, ServerStep.awaited]) returned
    | some second => exact moves (by simp [serverStep, stage, earlier, returned])
  | awaitingShutdown index =>
    cases returned : d.runtime.result index with
    | none => exact waits index (by simp [awaits, stage, ServerStep.awaited]) returned
    | some result => exact moves (by simp [serverStep, stage, returned])
  | _ => exact moves (by simp [serverStep, stage])

/- A step of the main thread that is not held up. -/
theorem closer_main (u : Daemon) (moved : d.mainStep = some u) (less : u.ahead < d.ahead) :
    Closer layout fromChars format d :=
  ⟨.main, u, .silent, rfl, by simp [Daemon.step, moved], less⟩

theorem Leaving.starts (h : Leaving layout notes d) (stage : d.main = .starting) :
    Closer layout fromChars format d := by
  by_cases done : d.runtime.start = some .returned
  · apply closer_main { d with main := .startingServer } (by simp [mainStep, stage, done])
    simp [ahead, stage, MainStep.ahead]
  · cases moved : d.runtime.startStep with
    | some r =>
      apply closer_main { d with runtime := r } (by simp [mainStep, stage, done, moved])
      exact ahead_runtime ((EdgeRuntime.startStep_cases moved).ahead done)
    | none =>
      obtain ⟨s, index, event, started, awaited, waiting⟩ := EdgeRuntime.startStep_waits moved
      have awaits : d.awaits .main = some index := by
        rw [awaits_starting stage, started, Option.bind_some, awaited]
        rfl
      exact h.regular.advances awaits waiting

/-- The runtime's own threads, as the daemon moves them. -/
theorem Leaving.stops (h : Leaving layout notes d) (stage : d.main = .stopping) :
    Closer layout fromChars format d := by
  have started := h.regular.ordered.begun (by simp [stage])
  cases current : d.runtime.stop with
  | none =>
    apply closer_main { d with
      runtime := { d.runtime.publish .shutdownRequested with
        stop := some { call := d.runtime.calls.length } } }
    · simp [mainStep, stage, current, EdgeRuntime.stopStep, started]
    · exact ahead_runtime (EdgeRuntime.ahead_requests current)
  | some c =>
    by_cases done : c.step = .returned
    · apply closer_main { d with main := .exited }
      · simp [mainStep, stage, current, done]
      · simp [ahead, stage, MainStep.ahead]
    obtain ⟨inner, r, note, own, moved, less⟩ :=
      h.regular.sound.own_enabled h.regular.threads current done
    have other : inner ≠ .start := by
      rintro rfl
      exact own
    obtain ⟨start, stop⟩ := EdgeRuntime.step_lifecycle other moved current
    have closer := ahead_runtime (d := d) (EdgeRuntime.ahead_less start stop less)
    cases inner with
    | start => contradiction
    | publish event => contradiction
    | stop =>
      obtain ⟨_, stopped, same⟩ := Option.map_eq_some_iff.mp moved
      cases same
      refine closer_main _ ?_ closer
      simp [mainStep, stage, current, done, stopped]
    | sensor sample =>
      obtain ⟨_, sensed, same⟩ := Option.map_eq_some_iff.mp moved
      cases same
      have any := EdgeRuntime.sensorLoop_any sensed less d.reading.2
      refine ⟨.sensor, { d with sensor := d.reading.1, runtime := r }, .silent, rfl, ?_, closer⟩
      simp [Daemon.step, sensorStep, any]
    | monitor => exact ⟨.monitor, _, note, rfl, by simp [Daemon.step, runtimeStep, moved], closer⟩
    | control now =>
      exact ⟨.control now, _, note, rfl, by simp [Daemon.step, runtimeStep, moved], closer⟩
    | advance index now =>
      exact ⟨.advance index now, _, note, rfl, by simp [Daemon.step, runtimeStep, moved], closer⟩

/-- As long as the daemon has not ended, one of its threads can bring it closer. -/
theorem Leaving.closer (h : Leaving layout notes d) (under : d.main ≠ .exited) :
    Closer layout fromChars format d := by
  cases stage : d.main with
  | starting => exact h.starts stage
  | startingServer =>
    apply closer_main { d with server := .checking, main := .watching }
    · simp [mainStep, stage]
    · simp only [ahead, stage, MainStep.ahead, ServerStep.ahead]
      omega
  | watching =>
    apply closer_main { d with main := .leaving }
    · simp [mainStep, stage, h.requested]
    · simp [ahead, stage, MainStep.ahead]
  | leaving =>
    apply closer_main
      { d.publish .shutdownRequested with main := .awaiting d.runtime.calls.length }
    · simp [mainStep, stage, h.requested]
    · have more := d.runtime.ahead_publish .shutdownRequested
      simp only [ahead, publish, more, stage, MainStep.ahead]
      omega
  | awaiting index =>
    cases returned : d.runtime.hasReturned index with
    | false =>
      have awaited : d.awaits .main = some index := by simp only [awaits, stage]
      exact h.regular.advances awaited returned
    | true =>
      apply closer_main { d with main := .stoppingServer }
      · simp [mainStep, stage, returned]
      · simp [ahead, stage, MainStep.ahead]
  | stoppingServer =>
    apply closer_main { d with serverStop := true, main := .joiningServer }
    · simp [mainStep, stage]
    · simp [ahead, stage, MainStep.ahead]
  | joiningServer =>
    by_cases gone : d.server = .exited
    · apply closer_main { d with main := .stopping }
      · simp [mainStep, stage, gone]
      · simp [ahead, stage, MainStep.ahead]
    · have present := h.regular.ordered.present (by rw [stage]; rfl) (by rw [stage]; rfl)
      exact h.serves (h.regular.ordered.told stage) ⟨present, gone⟩
  | stopping => exact h.stops stage
  | exited => exact absurd stage under

theorem Regular.ahead_le (h : Regular layout notes d) : d.ahead ≤ 785 := by
  have work := h.sound.work_le
  have flight := h.inFlight_le
  have main : d.main.ahead ≤ 19 := by
    cases d.main <;> simp [MainStep.ahead]
  have server : d.server.ahead ≤ 25 := by
    cases d.server <;> simp [ServerStep.ahead]
  have start : d.runtime.start.elim 32 StartStep.ahead ≤ 32 := by
    cases d.runtime.start with
    | none => exact Nat.le_refl _
    | some s => cases s <;> simp [StartStep.ahead]
  have stop : d.runtime.stop.elim 21 (fun _ => 0) ≤ 21 := by
    cases d.runtime.stop <;> simp
  simp only [ahead, EdgeRuntime.ahead]
  omega

theorem run_answered {labels : List DaemonLabel}
    (history : Exec.run (Daemon.step layout fromChars format) initial labels = some (d, notes)) :
    Answered d := by
  refine Exec.past_induction (P := fun _ _ d => Answered d) ?_ ?_ history
  · intro reset index there
    contradiction
  intro labels notes t label u note past answered moved
  exact answered.step (run_regular past) moved

end Steps

/-- Whatever the daemon has come to, after a signal there is a schedule of its own threads that
ends it, in at most so many steps and without another client. -/
theorem signal_ends (layout : Layout) (fromChars : List UInt8 → Ipc.FromChars)
    (format : Double → List UInt8) (labels : List DaemonLabel) (d : Daemon) (notes : List Note)
    (history : Exec.run (Daemon.step layout fromChars format) initial labels = some (d, notes)) :
    ∃ more d' later,
      Exec.run (Daemon.step layout fromChars format) d (.signal :: more) = some (d', later) ∧
      (∀ label ∈ more, label.isOwn = true) ∧ more.length ≤ 785 ∧ d'.main = .exited := by
  have signalled : d.step layout fromChars format .signal =
      some ({ d with stopRequested := true }, .silent) := rfl
  have leaving : Leaving layout (notes ++ [.silent]) { d with stopRequested := true } :=
    ⟨(run_regular history).step signalled, (run_answered history).step (run_regular history)
      signalled, rfl⟩
  have closer : ∀ told t, Leaving layout told t → ¬ t.main = .exited →
      ∃ label u note, label.isOwn = true ∧
        t.step layout fromChars format label = some (u, note) ∧
        Leaving layout (told ++ [note]) u ∧ u.ahead < t.ahead := by
    intro told t here under
    obtain ⟨label, u, note, own, moved, less⟩ := here.closer under
    exact ⟨label, u, note, own, moved, here.step moved, less⟩
  obtain ⟨more, d', later, future, -, done, always, short⟩ :=
    Exec.run_reaches Daemon.ahead closer leaving
  refine ⟨more, d', .silent :: later, Exec.run_cons.mpr ⟨_, _, later, signalled, future, rfl⟩,
    Exec.always_labels future always, short.trans leaving.regular.ahead_le, done⟩

theorem signal_ends_opening :
    ∃ d notes, Exec.run (Daemon.step EdgeRuntime.unitLayout noNumber noText) initial opening =
        some (d, notes) ∧ d.main = .watching ∧
      ∃ more d' later, Exec.run (Daemon.step EdgeRuntime.unitLayout noNumber noText) d
          (.signal :: more) = some (d', later) ∧
        (∀ label ∈ more, label.isOwn = true) ∧ more.length ≤ 785 ∧ d'.main = .exited := by
  have outcome : (Exec.run (Daemon.step EdgeRuntime.unitLayout noNumber noText) initial
      opening).any (fun reached => reached.1.main = .watching) = true := by decide +kernel
  obtain ⟨⟨d, notes⟩, history, watching⟩ := (Option.any_eq_true _ _).mp outcome
  exact ⟨d, notes, history, of_decide_eq_true watching,
    signal_ends EdgeRuntime.unitLayout noNumber noText opening d notes history⟩

section Audit

variable {layout : Layout} {fromChars : List UInt8 → Ipc.FromChars} {format : Double → List UInt8}
  {d : Daemon} {notes : List Note} {labels : List DaemonLabel}

/-- The run of the runtime inside a run of the daemon. -/
theorem run_projects
    (history : Exec.run (Daemon.step layout fromChars format) initial labels = some (d, notes)) :
    ∃ inner later, Exec.run (EdgeRuntime.step layout) (.initial {} true) inner =
        some (d.runtime, later) ∧
      pushedEvents later = pushedEvents notes ∧ handledEvents later = handledEvents notes := by
  refine Exec.run_induction
    (P := fun _ notes (d : Daemon) => ∃ inner later,
      Exec.run (EdgeRuntime.step layout) (.initial {} true) inner = some (d.runtime, later) ∧
        pushedEvents later = pushedEvents notes ∧ handledEvents later = handledEvents notes)
    ?_ ?_ history
  · exact ⟨[], [], by rw [Exec.run_nil]; rfl, rfl, rfl⟩
  rintro _ notes t label u note ⟨inner, later, past, pushed, handled⟩ moved
  cases (step_cases moved).1 with
  | rests same silent =>
    refine ⟨inner, later, same ▸ past, ?_, ?_⟩
    · simp [pushed, silent, Note.pushedEvent]
    · simp [handled, silent, Note.handledEvent]
  | moves label moved faithful =>
    refine ⟨inner ++ [label], later ++ [note], ?_, by simp [pushed], by simp [handled]⟩
    exact Exec.run_append past (Exec.run_cons.mpr ⟨_, note, [], moved, rfl, rfl⟩)

/-- Nobody is left to wait for a call. -/
theorem Regular.quiet (h : Regular layout notes d) (ended : d.main = .exited)
    (sensor : d.runtime.sensor = .exited) :
    ∀ call ∈ d.runtime.calls, call.step.isReturned = true := by
  intro call member
  obtain ⟨i, here⟩ := List.mem_iff_getElem?.mp member
  by_contra moving
  obtain ⟨caller, awaited⟩ := h.waits.heard i call here (Bool.eq_false_iff.mpr moving)
  cases caller with
  | main => simp [awaits, ended] at awaited
  | sensor => simp [awaits, sensor, SensorStep.awaited] at awaited
  | server =>
    rcases h.ordered.gone (by rw [ended]; rfl) with gone | gone <;>
      simp [awaits, gone, ServerStep.awaited] at awaited

/-- The request of `stop` has reached the machine, or had no room in the queue. -/
theorem Regular.request (h : Regular layout notes d)
    (delivering : Delivering (Exec.moves (Daemon.step layout fromChars format) initial labels)
      d.runtime)
    {c : StopCall} (current : d.runtime.stop = some c) (gone : d.runtime.control = .exited)
    (quiet : ∀ call ∈ d.runtime.calls, call.step.isReturned = true) :
    d.runtime.machine.state = .safeShutdown ∨
      Crowded (Exec.moves (Daemon.step layout fromChars format) initial labels) c.call := by
  obtain ⟨call, here, request, -⟩ := h.sound.staged.shutdown c current
  have returned := quiet call (List.mem_of_getElem? here)
  cases stage : call.step with
  | returned result =>
    have answer := delivering.calls c.call call result here (by rw [stage]; rfl)
    cases result with
    | published =>
      have pushed : (c.call, call.event) ∈ pushedCalls notes :=
        (h.sound.recorded.known c.call call.event).mpr ⟨call, here, rfl, by rw [stage]; rfl⟩
      have event : call.event ∈ pushedEvents notes := by
        rw [← pushedCalls_events]
        exact List.mem_map_of_mem pushed
      exact .inl ((h.sound.safeShutdown_iff gone).mpr ⟨call.event, event, by rw [request]; rfl⟩)
    | queueTimeout => exact .inr answer
    | notRunning =>
      have sample := answer.1
      rw [request] at sample
      contradiction
    | _ => exact absurd answer id
  | _ =>
    rw [stage] at returned
    contradiction

end Audit

/-- When the daemon has ended, nothing is left over. Its threads are gone and their calls
have returned, the queue and the pool are empty, every event pushed has been handled in
order and counted on both sides, and the machine is in safe shutdown unless the last
request found the queue full. -/
theorem exit_leaves_nothing (layout : Layout) (fromChars : List UInt8 → Ipc.FromChars)
    (format : Double → List UInt8) (labels : List DaemonLabel) (d : Daemon) (notes : List Note)
    (history : Exec.run (Daemon.step layout fromChars format) initial labels = some (d, notes))
    (ended : d.main = .exited) :
    ((d.server = .absent ∨ d.server = .exited) ∧ d.runtime.control = .exited ∧
      d.runtime.sensor = .exited ∧ d.runtime.monitor = .exited ∧
      ∀ call ∈ d.runtime.calls, call.step.isReturned = true) ∧
    (d.runtime.queue.size = 0 ∧ d.runtime.pool.stats.inUse = 0 ∧
      d.runtime.pool.stats.invalidReleases = 0) ∧
    (handledEvents notes = pushedEvents notes ∧
      d.runtime.metrics.eventsPublished = (pushedEvents notes).length % 2 ^ 64 ∧
      d.runtime.metrics.eventsProcessed = (pushedEvents notes).length % 2 ^ 64 ∧
      d.runtime.metrics.transitions = changes (.initial {}) (pushedEvents notes) % 2 ^ 64) ∧
    (d.runtime.machine.state = .safeShutdown ∨ ∃ c, d.runtime.stop = some c ∧
      Crowded (Exec.moves (Daemon.step layout fromChars format) initial labels) c.call) := by
  have regular := run_regular history
  obtain ⟨c, current, returned⟩ := regular.ordered.ended ended
  have control := regular.sound.staged.joined c current (by rw [returned]; rfl)
  have sensor := regular.threads.sensorGone c current (by rw [returned]; rfl)
  have monitor := regular.threads.monitorGone c current (by rw [returned]; rfl)
  have quiet := regular.quiet ended sensor
  have drained := regular.sound.drained control
  obtain ⟨inner, later, past, pushed, handled⟩ := run_projects history
  have balanced := EdgeRuntime.run_balanced past
  have tallied := EdgeRuntime.run_tallied past
  have empty := (regular.sound.staged.exited control).2
  have holders : Pipeline.holders d.runtime.calls = 0 := by
    apply List.countP_eq_zero.mpr
    intro call member
    have done := quiet call member
    cases stage : call.step <;> simp_all [PublishStep.isReturned, PublishStep.held]
  have recorded : recordings d.runtime.calls = 0 := by
    apply List.countP_eq_zero.mpr
    intro call member
    have done := quiet call member
    cases stage : call.step <;> simp_all [PublishStep.isReturned, PublishStep.isRecording]
  have published := tallied.published
  have processed := tallied.processed
  have transitions := tallied.transitions
  rw [recorded, pushed] at published
  rw [control, handled, drained] at processed transitions
  refine ⟨⟨regular.ordered.gone (by rw [ended]; rfl), control, sensor, monitor, quiet⟩,
    ⟨empty, ?_, balanced.valid⟩, ⟨drained, published.count, processed.count, transitions.count⟩, ?_⟩
  · rw [balanced.inUse, empty, holders, control]
    rfl
  · rcases regular.request (run_delivering history) current control quiet with safe | crowded
    · exact .inl safe
    · exact .inr ⟨c, current, crowded⟩

/- The way out after a signal, when nobody is in anybody's way. -/
def ending : List DaemonLabel :=
  [.signal, .main, .main] ++ List.replicate 4 (.advance 2 0) ++
    [.main, .main, .serve, .serve, .main, .main] ++ List.replicate 4 (.advance 3 0) ++
    List.replicate 5 .main ++ [.sensor, .monitor] ++ List.replicate 3 .main ++
    List.replicate 21 (.control 0) ++ List.replicate 3 .main

theorem exit_leaves_nothing_signalled :
    ∃ d notes, Exec.run (Daemon.step EdgeRuntime.unitLayout noNumber noText) initial
        (opening ++ ending) = some (d, notes) ∧ d.main = .exited ∧
      d.runtime.pool.stats.inUse = 0 ∧ handledEvents notes = pushedEvents notes ∧
      d.runtime.metrics.eventsProcessed = (pushedEvents notes).length % 2 ^ 64 := by
  have outcome : (Exec.run (Daemon.step EdgeRuntime.unitLayout noNumber noText) initial
      (opening ++ ending)).any (fun reached => reached.1.main = .exited) = true := by
    decide +kernel
  obtain ⟨⟨d, notes⟩, history, ended⟩ := (Option.any_eq_true _ _).mp outcome
  have ended := of_decide_eq_true ended
  obtain ⟨-, ⟨-, unused, -⟩, ⟨handled, -, processed, -⟩, -⟩ :=
    exit_leaves_nothing EdgeRuntime.unitLayout noNumber noText _ d notes history ended
  exact ⟨d, notes, history, ended, unused, handled, processed⟩

end Daemon

end EdgeSentinel
