import EdgeSentinel.Domain
import EdgeSentinel.Library.Mealy
import EdgeSentinel.Library.SizeT

/-! The protection state machine. Counters are `std::size_t`: the increment is
a parameter, so the same definitions describe the 64-bit machine of the source
(`SizeT.increment`) and the machine with unbounded counters (`Nat.succ`). -/
namespace EdgeSentinel

/-- `fsm::ProtectionConfig`. -/
structure ProtectionConfig where
  temperatureWarningC : Double := .finite 80
  temperatureRecoveryC : Double := .finite 75
  temperatureCriticalC : Double := .finite 95
  vibrationWarningMmS : Double := .finite 7
  vibrationRecoveryMmS : Double := .finite 5
  vibrationCriticalMmS : Double := .finite 10
  currentWarningA : Double := .finite 15
  currentRecoveryA : Double := .finite 13
  currentCriticalA : Double := .finite 20
  warningSamples : UInt64 := 3
  criticalSamples : UInt64 := 2
  recoverySamples : UInt64 := 5
  offlineSamples : UInt64 := 3
  deriving DecidableEq, Repr

namespace ProtectionConfig

def isWarning (config : ProtectionConfig) (sample : SensorSample) : Bool :=
  sample.temperatureC ≥ config.temperatureWarningC ||
    sample.vibrationMmS ≥ config.vibrationWarningMmS ||
    sample.currentA ≥ config.currentWarningA

def isCritical (config : ProtectionConfig) (sample : SensorSample) : Bool :=
  sample.temperatureC ≥ config.temperatureCriticalC ||
    sample.vibrationMmS ≥ config.vibrationCriticalMmS ||
    sample.currentA ≥ config.currentCriticalA

def isRecovered (config : ProtectionConfig) (sample : SensorSample) : Bool :=
  sample.temperatureC ≤ config.temperatureRecoveryC &&
    sample.vibrationMmS ≤ config.vibrationRecoveryMmS &&
    sample.currentA ≤ config.currentRecoveryA

end ProtectionConfig

/-- `fsm::MotorStateMachine`; everything but the configuration is its snapshot. -/
structure MotorStateMachine where
  config : ProtectionConfig := {}
  state : MotorState := .booting
  lastSample : SensorSample := {}
  hasSample : Bool := false
  warningCount : Nat := 0
  criticalCount : Nat := 0
  recoveryCount : Nat := 0
  offlineCount : Nat := 0
  deriving DecidableEq, Repr

namespace MotorStateMachine

def resetCounters (m : MotorStateMachine) : MotorStateMachine :=
  { m with warningCount := 0, criticalCount := 0, recoveryCount := 0, offlineCount := 0 }

def transitionTo (m : MotorStateMachine) (next : MotorState) (reason : TransitionReason) :
    MotorStateMachine × StateTransition :=
  ({ m with state := next }.resetCounters,
    { previous := m.state, current := next, reason := reason, changed := m.state != next })

def unchanged (m : MotorStateMachine) : StateTransition :=
  { previous := m.state, current := m.state, reason := .none, changed := false }

/-- The branch of an offline sample in a protecting state. -/
def handleOffline (bump : Nat → Nat) (m : MotorStateMachine) :
    MotorStateMachine × StateTransition :=
  let m := { m with
    offlineCount := bump m.offlineCount, warningCount := 0, criticalCount := 0, recoveryCount := 0 }
  if m.offlineCount ≥ m.config.offlineSamples.toNat then
    m.transitionTo .faultLatched .sensorOffline
  else (m, m.unchanged)

/-- The branch of an online sample in a protecting state. -/
def handleOnline (bump : Nat → Nat) (m : MotorStateMachine) (sample : SensorSample) :
    MotorStateMachine × StateTransition :=
  let m := { m with offlineCount := 0 }
  let m := { m with
    criticalCount := if m.config.isCritical sample then bump m.criticalCount else 0 }
  if m.criticalCount ≥ m.config.criticalSamples.toNat then
    m.transitionTo .faultLatched .criticalReading
  else
    let m :=
      if m.config.isWarning sample then
        { m with warningCount := bump m.warningCount, recoveryCount := 0 }
      else
        { m with
          warningCount := 0
          recoveryCount :=
            if m.state = .degraded ∧ m.config.isRecovered sample then bump m.recoveryCount else 0 }
    if m.state = .healthy ∧ m.warningCount ≥ m.config.warningSamples.toNat then
      m.transitionTo .degraded .warningPersisted
    else if m.state = .degraded ∧ m.recoveryCount ≥ m.config.recoverySamples.toNat then
      m.transitionTo .healthy .readingsRecovered
    else (m, m.unchanged)

def handleSample (bump : Nat → Nat) (m : MotorStateMachine) (sample : SensorSample) :
    MotorStateMachine × StateTransition :=
  let m := { m with lastSample := sample, hasSample := true }
  if m.state ≠ .healthy ∧ m.state ≠ .degraded then (m, m.unchanged)
  else if !sample.online then handleOffline bump m
  else handleOnline bump m sample

def handleWith (bump : Nat → Nat) (m : MotorStateMachine) (event : Event) :
    MotorStateMachine × StateTransition :=
  if m.state = .safeShutdown then (m, m.unchanged)
  else if event.kind = .shutdownRequested then m.transitionTo .safeShutdown .shutdownRequested
  else if event.kind = .internalFault then
    m.transitionTo .faultLatched .internalResourceFailure
  else
    match event.kind with
    | .startup =>
      if m.state = .booting then m.transitionTo .selfTest .startupRequested else (m, m.unchanged)
    | .selfTestPassed =>
      if m.state = .selfTest then m.transitionTo .healthy .selfTestSucceeded else (m, m.unchanged)
    | .sensorSample => handleSample bump m event.sample
    | .resetRequested =>
      if m.state = .faultLatched then m.transitionTo .selfTest .manualReset else (m, m.unchanged)
    | .shutdownRequested => (m, m.unchanged)
    | .internalFault => (m, m.unchanged)

/-- `MotorStateMachine::handle`, with 64-bit counters. -/
def handle : MotorStateMachine → Event → MotorStateMachine × StateTransition :=
  handleWith SizeT.increment

/-- A freshly constructed machine. -/
def initial (config : ProtectionConfig) : MotorStateMachine := { config }

end MotorStateMachine

end EdgeSentinel
