import EdgeSentinel.Library.Exec
import EdgeSentinel.Runtime.Pipeline

/-! The runtime as a system of threads. A label says which thread moves and what
the outside world gives it. Every wait with a time limit may end at any moment,
so the periods and timeouts of the configuration play no part. -/
namespace EdgeSentinel

/- The call that set `started_`; it holds the lifecycle mutex until it returns. -/
inductive StartStep where
  | opening
  | raising
  | spawningControl
  | callingStartup
  | awaitingStartup (call : Nat)
  | awaitingSelfTest (call : Nat)
  | spawningSensor
  | spawningMonitor
  | returned
  deriving DecidableEq, Repr

inductive StopStep where
  | publishing
  | refusing
  | awaitingState
  | stoppingSensor
  | stoppingMonitor
  | joiningSensor
  | joiningMonitor
  | closing
  | joiningControl
  | lowering
  | returned
  deriving DecidableEq, Repr

/- The call that set `stopped_`, with its own call of `publish`. -/
structure StopCall where
  call : Nat
  step : StopStep := .publishing
  deriving DecidableEq, Repr

inductive SensorStep where
  | absent
  | checking
  | awaiting (call : Nat)
  | sleeping
  | exited
  deriving DecidableEq, Repr

inductive MonitorStep where
  | absent
  | sleeping
  | exited
  deriving DecidableEq, Repr

/-- `EdgeRuntime` with its threads. `started_` and `stopped_` are whether there
is a call that set them; the two stop flags are those of the stop tokens. -/
structure EdgeRuntime extends Pipeline where
  hasSensor : Bool
  running : Bool := false
  sensorStop : Bool := false
  monitorStop : Bool := false
  start : Option StartStep := none
  stop : Option StopCall := none
  sensor : SensorStep := .absent
  monitor : MonitorStep := .absent

inductive Label where
  | start
  | stop
  | publish (event : Event)
  | advance (call : Nat) (now : Nat)
  | control (now : Nat)
  | sensor (sample : SensorSample)
  | monitor
  deriving DecidableEq, Repr

namespace EdgeRuntime

def initial (protection : ProtectionConfig) (hasSensor : Bool) : EdgeRuntime where
  machine := .initial protection
  hasSensor := hasSensor

/- The call of `publish` that a thread makes on its own. -/
def publish (r : EdgeRuntime) (event : Event) : EdgeRuntime :=
  { r with toPipeline := r.toPipeline.call event }

def sensorLoop (r : EdgeRuntime) (sample : SensorSample) : Option EdgeRuntime :=
  match r.sensor with
  | .absent => none
  | .checking =>
    if r.sensorStop then some { r with sensor := .exited }
    else if r.hasSensor then
      some { r.publish (.sensorSample sample) with sensor := .awaiting r.calls.length }
    else some { r with sensor := .sleeping }
  | .awaiting index => if r.hasReturned index then some { r with sensor := .sleeping } else none
  | .sleeping => some { r with sensor := if r.sensorStop then .exited else .checking }
  | .exited => none

def monitorLoop (r : EdgeRuntime) : Option EdgeRuntime :=
  match r.monitor with
  | .absent => none
  | .sleeping =>
    if r.monitorStop then some { r with monitor := .exited }
    else some { r with metrics := r.metrics.recordMonitorTick }
  | .exited => none

/- A second call finds `started_` set and returns false. -/
def startStep (r : EdgeRuntime) : Option EdgeRuntime :=
  match r.start with
  | none => some { r with start := some .opening }
  | some .opening => some { r with acceptingEvents := true, start := some .raising }
  | some .raising => some { r with running := true, start := some .spawningControl }
  | some .spawningControl => some { r with control := .waiting, start := some .callingStartup }
  | some .callingStartup =>
    some { r.publish .startup with start := some (.awaitingStartup r.calls.length) }
  | some (.awaitingStartup index) =>
    if r.hasReturned index then
      some { r.publish .selfTestPassed with start := some (.awaitingSelfTest r.calls.length) }
    else none
  | some (.awaitingSelfTest index) =>
    if r.hasReturned index then some { r with start := some .spawningSensor } else none
  | some .spawningSensor => some { r with sensor := .checking, start := some .spawningMonitor }
  | some .spawningMonitor => some { r with monitor := .sleeping, start := some .returned }
  | some .returned => some r

def stopRunning (r : EdgeRuntime) (s : StopCall) : Option EdgeRuntime :=
  let next (r : EdgeRuntime) (step : StopStep) := some { r with stop := some { s with step } }
  match s.step with
  | .publishing => if r.hasReturned s.call then next r .refusing else none
  | .refusing => next { r with acceptingEvents := false } .awaitingState
  | .awaitingState => next r .stoppingSensor
  | .stoppingSensor => next { r with sensorStop := true } .stoppingMonitor
  | .stoppingMonitor => next { r with monitorStop := true } .joiningSensor
  | .joiningSensor => if r.sensor = .exited then next r .joiningMonitor else none
  | .joiningMonitor => if r.monitor = .exited then next r .closing else none
  | .closing => next { r with queue := r.queue.close } .joiningControl
  | .joiningControl => if r.control = .exited then next r .lowering else none
  | .lowering => next { r with running := false } .returned
  | .returned => some r

/- A call that finds the runtime not started or already stopped returns at once;
during `start` it waits for the lifecycle mutex. -/
def stopStep (r : EdgeRuntime) : Option EdgeRuntime :=
  match r.start, r.stop with
  | none, _ => some r
  | some .returned, none =>
    some { r.publish .shutdownRequested with stop := some { call := r.calls.length } }
  | some .returned, some s => r.stopRunning s
  | some _, _ => none

def step (layout : Layout) (r : EdgeRuntime) : Label → Option (EdgeRuntime × Note)
  | .start => r.startStep.map (·, .silent)
  | .stop => r.stopStep.map (·, .silent)
  | .publish event => some (r.publish event, .silent)
  | .advance index now =>
    (r.calls[index]?.bind (r.advance layout index now)).map fun (p, note) =>
      ({ r with toPipeline := p }, note)
  | .control now =>
    (r.controlLoop layout now).map fun (p, note) => ({ r with toPipeline := p }, note)
  | .sensor sample => (r.sensorLoop sample).map (·, .silent)
  | .monitor => r.monitorLoop.map (·, .silent)

/-- What one step of `start` can be. -/
inductive Starts (r : EdgeRuntime) : EdgeRuntime → Prop where
  | enters (stage : r.start = none) : Starts r { r with start := some .opening }
  | opens (stage : r.start = some .opening) :
      Starts r { r with acceptingEvents := true, start := some .raising }
  | raises (stage : r.start = some .raising) :
      Starts r { r with running := true, start := some .spawningControl }
  | spawnsControl (stage : r.start = some .spawningControl) :
      Starts r { r with control := .waiting, start := some .callingStartup }
  | callsStartup (stage : r.start = some .callingStartup) :
      Starts r { r.publish .startup with start := some (.awaitingStartup r.calls.length) }
  | callsSelfTest {index : Nat} (stage : r.start = some (.awaitingStartup index))
      (returned : r.hasReturned index = true) :
      Starts r { r.publish .selfTestPassed with start := some (.awaitingSelfTest r.calls.length) }
  | tested {index : Nat} (stage : r.start = some (.awaitingSelfTest index))
      (returned : r.hasReturned index = true) :
      Starts r { r with start := some .spawningSensor }
  | spawnsSensor (stage : r.start = some .spawningSensor) :
      Starts r { r with sensor := .checking, start := some .spawningMonitor }
  | spawnsMonitor (stage : r.start = some .spawningMonitor) :
      Starts r { r with monitor := .sleeping, start := some .returned }
  | again (stage : r.start = some .returned) : Starts r r

theorem startStep_cases {r r' : EdgeRuntime} (moved : r.startStep = some r') : Starts r r' := by
  unfold startStep at moved
  split at moved
  · cases moved
    exact .enters ‹_›
  · cases moved
    exact .opens ‹_›
  · cases moved
    exact .raises ‹_›
  · cases moved
    exact .spawnsControl ‹_›
  · cases moved
    exact .callsStartup ‹_›
  · obtain ⟨returned, same⟩ := Option.ite_none_right_eq_some.mp moved
    cases same
    exact .callsSelfTest ‹_› returned
  · obtain ⟨returned, same⟩ := Option.ite_none_right_eq_some.mp moved
    cases same
    exact .tested ‹_› returned
  · cases moved
    exact .spawnsSensor ‹_›
  · cases moved
    exact .spawnsMonitor ‹_›
  · cases moved
    exact .again ‹_›

/-- What one step of `stop` behind the check of `stopped_` can be. -/
inductive Stops (r : EdgeRuntime) (c : StopCall) : EdgeRuntime → Prop where
  | published (stage : c.step = .publishing) (returned : r.hasReturned c.call = true) :
      Stops r c { r with stop := some { c with step := .refusing } }
  | refuses (stage : c.step = .refusing) :
      Stops r c { r with acceptingEvents := false, stop := some { c with step := .awaitingState } }
  | waited (stage : c.step = .awaitingState) :
      Stops r c { r with stop := some { c with step := .stoppingSensor } }
  | stopsSensor (stage : c.step = .stoppingSensor) :
      Stops r c { r with sensorStop := true, stop := some { c with step := .stoppingMonitor } }
  | stopsMonitor (stage : c.step = .stoppingMonitor) :
      Stops r c { r with monitorStop := true, stop := some { c with step := .joiningSensor } }
  | joinsSensor (stage : c.step = .joiningSensor) (gone : r.sensor = .exited) :
      Stops r c { r with stop := some { c with step := .joiningMonitor } }
  | joinsMonitor (stage : c.step = .joiningMonitor) (gone : r.monitor = .exited) :
      Stops r c { r with stop := some { c with step := .closing } }
  | closes (stage : c.step = .closing) :
      Stops r c
        { r with queue := r.queue.close, stop := some { c with step := .joiningControl } }
  | joinsControl (stage : c.step = .joiningControl) (gone : r.control = .exited) :
      Stops r c { r with stop := some { c with step := .lowering } }
  | lowers (stage : c.step = .lowering) :
      Stops r c { r with running := false, stop := some { c with step := .returned } }
  | again (stage : c.step = .returned) : Stops r c r

theorem stopRunning_cases {r r' : EdgeRuntime} {c : StopCall} (moved : r.stopRunning c = some r') :
    Stops r c r' := by
  unfold stopRunning at moved
  cases stage : c.step with
  | publishing =>
    simp only [stage, Option.ite_none_right_eq_some, Option.some.injEq] at moved
    obtain ⟨returned, rfl⟩ := moved
    exact .published stage returned
  | refusing =>
    simp only [stage, Option.some.injEq] at moved
    exact moved ▸ .refuses stage
  | awaitingState =>
    simp only [stage, Option.some.injEq] at moved
    exact moved ▸ .waited stage
  | stoppingSensor =>
    simp only [stage, Option.some.injEq] at moved
    exact moved ▸ .stopsSensor stage
  | stoppingMonitor =>
    simp only [stage, Option.some.injEq] at moved
    exact moved ▸ .stopsMonitor stage
  | joiningSensor =>
    simp only [stage, Option.ite_none_right_eq_some, Option.some.injEq] at moved
    obtain ⟨gone, rfl⟩ := moved
    exact .joinsSensor stage gone
  | joiningMonitor =>
    simp only [stage, Option.ite_none_right_eq_some, Option.some.injEq] at moved
    obtain ⟨gone, rfl⟩ := moved
    exact .joinsMonitor stage gone
  | closing =>
    simp only [stage, Option.some.injEq] at moved
    exact moved ▸ .closes stage
  | joiningControl =>
    simp only [stage, Option.ite_none_right_eq_some, Option.some.injEq] at moved
    obtain ⟨gone, rfl⟩ := moved
    exact .joinsControl stage gone
  | lowering =>
    simp only [stage, Option.some.injEq] at moved
    exact moved ▸ .lowers stage
  | returned =>
    simp only [stage, Option.some.injEq] at moved
    exact moved ▸ .again stage

/-- What one step of the sensor loop can be. -/
inductive Senses (r : EdgeRuntime) (sample : SensorSample) : EdgeRuntime → Prop where
  | exits (stage : r.sensor = .checking ∨ r.sensor = .sleeping) (stopped : r.sensorStop = true) :
      Senses r sample { r with sensor := .exited }
  | publishes (stage : r.sensor = .checking) (present : r.hasSensor = true)
      (running : r.sensorStop = false) :
      Senses r sample
        { r.publish (.sensorSample sample) with sensor := .awaiting r.calls.length }
  | skips (stage : r.sensor = .checking) (missing : r.hasSensor = false)
      (running : r.sensorStop = false) : Senses r sample { r with sensor := .sleeping }
  | published {index : Nat} (stage : r.sensor = .awaiting index)
      (returned : r.hasReturned index = true) : Senses r sample { r with sensor := .sleeping }
  | wakes (stage : r.sensor = .sleeping) (running : r.sensorStop = false) :
      Senses r sample { r with sensor := .checking }

theorem sensorLoop_cases {r r' : EdgeRuntime} {sample : SensorSample}
    (moved : r.sensorLoop sample = some r') : Senses r sample r' := by
  unfold sensorLoop at moved
  split at moved
  · contradiction
  · split at moved
    · cases moved
      exact .exits (.inl ‹_›) ‹_›
    · rename_i running
      split at moved
      · cases moved
        exact .publishes ‹_› ‹_› (Bool.eq_false_iff.mpr running)
      · rename_i missing
        cases moved
        exact .skips ‹_› (Bool.eq_false_iff.mpr missing) (Bool.eq_false_iff.mpr running)
  · obtain ⟨returned, same⟩ := Option.ite_none_right_eq_some.mp moved
    cases same
    exact .published ‹_› returned
  · cases moved
    split
    · exact .exits (.inr ‹_›) ‹_›
    · rename_i running
      exact .wakes ‹_› (Bool.eq_false_iff.mpr running)
  · contradiction

/-- What one step of the monitor loop can be. -/
inductive Monitors (r : EdgeRuntime) : EdgeRuntime → Prop where
  | exits (stage : r.monitor = .sleeping) (stopped : r.monitorStop = true) :
      Monitors r { r with monitor := .exited }
  | ticks (stage : r.monitor = .sleeping) (running : r.monitorStop = false) :
      Monitors r { r with metrics := r.metrics.recordMonitorTick }

theorem monitorLoop_cases {r r' : EdgeRuntime} (moved : r.monitorLoop = some r') :
    Monitors r r' := by
  unfold monitorLoop at moved
  split at moved
  · contradiction
  · split at moved
    · cases moved
      exact .exits ‹_› ‹_›
    · rename_i running
      cases moved
      exact .ticks ‹_› (Bool.eq_false_iff.mpr running)
  · contradiction

/-- What one step of the system can be. -/
inductive Steps (layout : Layout) (r : EdgeRuntime) : Label → EdgeRuntime → Note → Prop where
  | starts {r' : EdgeRuntime} (moved : Starts r r') : Steps layout r .start r' .silent
  | unstarted (stage : r.start = none) : Steps layout r .stop r .silent
  | requests (started : r.start = some .returned) (unstopped : r.stop = none) :
      Steps layout r .stop
        { r.publish .shutdownRequested with stop := some { call := r.calls.length } } .silent
  | stops {c : StopCall} {r' : EdgeRuntime} (current : r.stop = some c) (moved : Stops r c r') :
      Steps layout r .stop r' .silent
  | publishes (event : Event) : Steps layout r (.publish event) (r.publish event) .silent
  | advances {index now : Nat} {call : PublishCall} {q : Pipeline} {note : Note}
      (here : r.calls[index]? = some call)
      (moved : r.advance layout index now call = some (q, note)) :
      Steps layout r (.advance index now) { r with toPipeline := q } note
  | controls {now : Nat} {q : Pipeline} {note : Note}
      (moved : r.controlLoop layout now = some (q, note)) :
      Steps layout r (.control now) { r with toPipeline := q } note
  | senses {sample : SensorSample} {r' : EdgeRuntime} (moved : Senses r sample r') :
      Steps layout r (.sensor sample) r' .silent
  | monitors {r' : EdgeRuntime} (moved : Monitors r r') : Steps layout r .monitor r' .silent

theorem step_cases {layout : Layout} {r r' : EdgeRuntime} {label : Label} {note : Note}
    (moved : step layout r label = some (r', note)) : Steps layout r label r' note := by
  cases label with
  | start =>
    obtain ⟨_, started, same⟩ := Option.map_eq_some_iff.mp moved
    cases same
    exact .starts (startStep_cases started)
  | stop =>
    obtain ⟨_, stopped, same⟩ := Option.map_eq_some_iff.mp moved
    cases same
    unfold stopStep at stopped
    split at stopped
    · cases stopped
      exact .unstarted ‹_›
    · cases stopped
      exact .requests ‹_› ‹_›
    · exact .stops ‹_› (stopRunning_cases stopped)
    · contradiction
  | publish event =>
    cases moved
    exact .publishes event
  | advance index now =>
    obtain ⟨⟨q, _⟩, advanced, same⟩ := Option.map_eq_some_iff.mp moved
    obtain ⟨call, here, advanced⟩ := Option.bind_eq_some_iff.mp advanced
    cases same
    exact .advances here advanced
  | control now =>
    obtain ⟨⟨q, _⟩, controlled, same⟩ := Option.map_eq_some_iff.mp moved
    cases same
    exact .controls controlled
  | sensor sample =>
    obtain ⟨_, sensed, same⟩ := Option.map_eq_some_iff.mp moved
    cases same
    exact .senses (sensorLoop_cases sensed)
  | monitor =>
    obtain ⟨_, monitored, same⟩ := Option.map_eq_some_iff.mp moved
    cases same
    exact .monitors (monitorLoop_cases monitored)

end EdgeRuntime

end EdgeSentinel
