import EdgeSentinel.Ipc.Server
import EdgeSentinel.Runtime.Model

/-! The daemon: the runtime with its simulated sensor, the thread that serves commands
and the main thread. `build_response` runs on the server's thread, so each of its
accesses to shared state is a step of its own among those of the others. -/
namespace EdgeSentinel

/-- `simulation::SimulatedSensor`; every member function holds its mutex throughout. -/
structure SimulatedSensor where
  baseline : SensorSample := {}
  override : Option SensorSample := none
  sequence : UInt64 := 0
  deriving DecidableEq, Repr

namespace SimulatedSensor

def read (s : SimulatedSensor) : SimulatedSensor × SensorSample :=
  let sequence := s.sequence + 1
  ({ s with sequence }, { s.override.getD s.baseline with sequence })

def setOverride (s : SimulatedSensor) (sample : SensorSample) : SimulatedSensor :=
  { s with override := some sample }

def clearOverride (s : SimulatedSensor) : SimulatedSensor := { s with override := none }

end SimulatedSensor

def MotorState.text : MotorState → String
  | .booting => "Booting"
  | .selfTest => "SelfTest"
  | .healthy => "Healthy"
  | .degraded => "Degraded"
  | .faultLatched => "FaultLatched"
  | .safeShutdown => "SafeShutdown"

def Ipc.ParseError.text : Ipc.ParseError → String
  | .none => "none"
  | .empty => "empty"
  | .tooLong => "too_long"
  | .unknownCommand => "unknown_command"
  | .wrongArgumentCount => "wrong_argument_count"
  | .unknownTarget => "unknown_target"
  | .invalidNumber => "invalid_number"
  | .outOfRange => "out_of_range"

/- What a call of `publish` has returned. -/
def Pipeline.result (p : Pipeline) (index : Nat) : Option PublishResult :=
  match p.calls[index]? with
  | some { step := .returned result, .. } => some result
  | _ => none

/- Where the server's thread stands. Between `building` and `responding` it is inside
`build_response`, which leaves behind the calls of `publish` that it made. -/
inductive ServerStep where
  | absent
  | checking
  | accepting
  | building (input : List UInt8)
  | awaitingReset (call : Nat)
  | awaitingSelfTest (reset call : Nat)
  | awaitingShutdown (call : Nat)
  | responding (calls : List Nat) (response : List UInt8)
  | exited
  deriving DecidableEq, Repr

inductive MainStep where
  | starting
  | startingServer
  | watching
  | leaving
  | awaiting (call : Nat)
  | stoppingServer
  | joiningServer
  | stopping
  | exited
  deriving DecidableEq, Repr

/- `serverStop` is the stop token of the server's thread. -/
structure Daemon where
  runtime : EdgeRuntime
  sensor : SimulatedSensor
  stopRequested : Bool := false
  serverStop : Bool := false
  server : ServerStep := .absent
  main : MainStep := .starting

inductive DaemonLabel where
  | main
  | serverFails
  | signal
  | serve
  | accept (turns : List Ipc.Turn)
  | sensor
  | monitor
  | control (now : Nat)
  | advance (call now : Nat)
  deriving DecidableEq, Repr

namespace Daemon

open Ipc (literal)

def nominal : SensorSample where
  temperatureC := .finite 45
  vibrationMmS := .finite 2
  currentA := .finite 6
  online := true

def initial : Daemon where
  runtime := .initial {} true
  sensor := { baseline := nominal }

/- The sample that `inject` puts in place of the readings. -/
def injection (command : Ipc.Command) : Option SensorSample :=
  match command.target with
  | .temperature => some { nominal with temperatureC := command.value }
  | .vibration => some { nominal with vibrationMmS := command.value }
  | .current => some { nominal with currentA := command.value }
  | .offline => some { nominal with online := false }
  | .none => none

/- The call of `publish` that a thread of the daemon makes. -/
def publish (d : Daemon) (event : Event) : Daemon := { d with runtime := d.runtime.publish event }

/- The server's thread calls `build_response`. -/
def handOver (d : Daemon) (command : List UInt8) : Daemon := { d with server := .building command }

def respond (d : Daemon) (calls : List Nat) (response : List UInt8) : Daemon :=
  { d with server := .responding calls response }

def decimal (n : Nat) : List UInt8 := literal (toString n)

/- One step for the whole text; the source reads the parts of a snapshot one by one. -/
def metricsText (r : EdgeRuntime) : List UInt8 :=
  literal "events_published=" ++ decimal r.metrics.eventsPublished ++
    literal " events_processed=" ++ decimal r.metrics.eventsProcessed ++
    literal " events_dropped=" ++ decimal r.metrics.eventsDropped ++
    literal " transitions=" ++ decimal r.metrics.transitions ++
    literal " max_latency_ns=" ++ decimal r.metrics.maxEventLatencyNs ++
    literal " pool=" ++ decimal r.pool.stats.inUse ++ literal "/" ++ decimal kEventPoolCapacity ++
    literal " pool_high=" ++ decimal r.pool.stats.highWatermark ++
    literal " queue=" ++ decimal r.queue.size ++ literal "/" ++ decimal kEventQueueCapacity ++
    literal " queue_high=" ++ decimal r.queue.stats.highWatermark

/- `published` or not is all that becomes of an answer of `publish`. -/
def delivery (success : String) (results : List PublishResult) : List UInt8 :=
  if results.all (· = .published) then literal success else literal "error=event_delivery_failed"

section Threads

variable (layout : Layout) (fromChars : List UInt8 → Ipc.FromChars) (format : Double → List UInt8)

/- `format` is what `operator<<` writes for a `double`. -/
def statusText (m : MotorStateMachine) : List UInt8 :=
  literal "state=" ++ literal m.state.text ++
    literal " temperature_c=" ++ format m.lastSample.temperatureC ++
    literal " vibration_mm_s=" ++ format m.lastSample.vibrationMmS ++
    literal " current_a=" ++ format m.lastSample.currentA ++
    literal " online=" ++ literal (if m.lastSample.online then "1" else "0")

/-- `build_response` up to its first call of `publish`, or to its end. -/
def buildResponse (d : Daemon) (input : List UInt8) : Daemon :=
  let parsed := Ipc.parseCommand fromChars input
  if !parsed.ok then d.respond [] (literal "error=" ++ literal parsed.error.text)
  else
    match parsed.command.kind with
    | .status => d.respond [] (statusText format d.runtime.machine)
    | .metrics => d.respond [] (metricsText d.runtime)
    | .inject =>
      match injection parsed.command with
      | some sample =>
        { d with sensor := d.sensor.setOverride sample }.respond [] (literal "ok=injection_set")
      | none => d.respond [] (literal "error=unknown_target")
    | .clear =>
      { d with sensor := d.sensor.clearOverride }.respond [] (literal "ok=injection_cleared")
    | .reset =>
      { d.publish .resetRequested with
        sensor := d.sensor.clearOverride
        server := .awaitingReset d.runtime.calls.length }
    | .shutdown =>
      { d.publish .shutdownRequested with server := .awaitingShutdown d.runtime.calls.length }
    | .invalid => d.respond [] (literal "error=unknown_command")

/- The server's thread on its own; without a client `accept_loop` polls again. -/
def serverStep (d : Daemon) : Option Daemon :=
  match d.server with
  | .absent => none
  | .checking => some { d with server := if d.serverStop then .exited else .accepting }
  | .accepting => some { d with server := .checking }
  | .building input => some (d.buildResponse fromChars format input)
  | .awaitingReset index =>
    (d.runtime.result index).map fun _ =>
      { d.publish .selfTestPassed with
        server := .awaitingSelfTest index d.runtime.calls.length }
  | .awaitingSelfTest reset index =>
    (d.runtime.result reset).bind fun first => (d.runtime.result index).map fun second =>
      d.respond [reset, index] (delivery "ok=reset_requested" [first, second])
  | .awaitingShutdown index =>
    (d.runtime.result index).map fun result =>
      d.respond [index] (delivery "ok=shutdown_requested" [result])
  | .responding _ _ => some { d with server := .checking }
  | .exited => none

/- `serve_client` up to the call of the handler. -/
def acceptClient (d : Daemon) (turns : List Ipc.Turn) : Option Daemon :=
  if d.server = .accepting then
    match Ipc.decision turns with
    | .noReply => some { d with server := .checking }
    | .tooLong => some (d.respond [] (literal "error=too_long\n"))
    | .handler command => some (d.handOver command)
  else none

def mainStep (d : Daemon) : Option Daemon :=
  match d.main with
  | .starting =>
    if d.runtime.start = some .returned then some { d with main := .startingServer }
    else d.runtime.startStep.map fun runtime => { d with runtime }
  | .startingServer => some { d with server := .checking, main := .watching }
  | .watching =>
    if d.stopRequested ∨ d.runtime.machine.state = .safeShutdown then
      some { d with main := .leaving }
    else some d
  | .leaving =>
    if d.stopRequested then
      some { d.publish .shutdownRequested with main := .awaiting d.runtime.calls.length }
    else some { d with main := .stoppingServer }
  | .awaiting index =>
    if d.runtime.hasReturned index then some { d with main := .stoppingServer } else none
  | .stoppingServer => some { d with serverStop := true, main := .joiningServer }
  | .joiningServer => if d.server = .exited then some { d with main := .stopping } else none
  | .stopping =>
    if d.runtime.stop.any (·.step = .returned) then some { d with main := .exited }
    else d.runtime.stopStep.map fun runtime => { d with runtime }
  | .exited => none

/- The sensor after the next step of its thread, and what that step read. The sample
plays no part unless `sensor_loop` is about to publish it. -/
def reading (d : Daemon) : SimulatedSensor × SensorSample :=
  if d.runtime.sensor = .checking ∧ !d.runtime.sensorStop ∧ d.runtime.hasSensor then d.sensor.read
  else (d.sensor, {})

def sensorStep (d : Daemon) : Option Daemon :=
  (d.runtime.sensorLoop d.reading.2).map fun runtime => { d with sensor := d.reading.1, runtime }

/- A thread of the runtime that touches nothing else. -/
def runtimeStep (d : Daemon) (label : Label) : Option (Daemon × Note) :=
  (d.runtime.step layout label).map fun (runtime, note) => ({ d with runtime }, note)

def step (d : Daemon) : DaemonLabel → Option (Daemon × Note)
  | .main => d.mainStep.map (·, .silent)
  | .serverFails =>
    if d.main = .startingServer then some ({ d with main := .stopping }, .silent) else none
  | .signal => some ({ d with stopRequested := true }, .silent)
  | .serve => (d.serverStep fromChars format).map (·, .silent)
  | .accept turns => (d.acceptClient turns).map (·, .silent)
  | .sensor => d.sensorStep.map (·, .silent)
  | .monitor => d.runtimeStep layout .monitor
  | .control now => d.runtimeStep layout (.control now)
  | .advance index now => d.runtimeStep layout (.advance index now)

end Threads

end Daemon

end EdgeSentinel
