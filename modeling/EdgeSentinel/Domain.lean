import Mathlib.Data.Rat.Defs
import Mathlib.Algebra.Order.Ring.Rat

/-! The data that travels through the sentinel: readings, events and states.
Readings are compared and stored, never summed, so a `double` is kept as the
extended rational it denotes. Signed zeros coincide and rounding plays no part. -/
namespace EdgeSentinel

/-- What a C++ `double` can denote. -/
inductive Double where
  | nan
  | negInf
  | finite (value : ℚ)
  | posInf
  deriving DecidableEq, Repr

namespace Double

/-- The IEEE comparison: every comparison with a NaN is false. -/
def lessEqual : Double → Double → Bool
  | .nan, _ => false
  | _, .nan => false
  | .negInf, _ => true
  | _, .posInf => true
  | .finite a, .finite b => decide (a ≤ b)
  | _, _ => false

instance : LE Double := ⟨fun a b => lessEqual a b = true⟩

instance (a b : Double) : Decidable (a ≤ b) := inferInstanceAs (Decidable (lessEqual a b = true))

def isFinite : Double → Bool
  | .finite _ => true
  | _ => false

@[simp] theorem finite_le_finite {a b : ℚ} : Double.finite a ≤ .finite b ↔ a ≤ b :=
  decide_eq_true_iff

/-- A NaN is below nothing, so transitivity survives without reflexivity. -/
theorem le_trans {a b c : Double} (ab : a ≤ b) (bc : b ≤ c) : a ≤ c := by
  change lessEqual a b = true at ab
  change lessEqual b c = true at bc
  change lessEqual a c = true
  cases a <;> cases b <;> cases c <;> simp_all [lessEqual]
  exact Std.le_trans ab bc

end Double

/-- `domain::SensorSample`. -/
structure SensorSample where
  temperatureC : Double := .finite 0
  vibrationMmS : Double := .finite 0
  currentA : Double := .finite 0
  online : Bool := true
  sequence : UInt64 := 0
  deriving DecidableEq, Repr

/-- `domain::MotorState`. -/
inductive MotorState where
  | booting
  | selfTest
  | healthy
  | degraded
  | faultLatched
  | safeShutdown
  deriving DecidableEq, Repr

/-- `domain::TransitionReason`. -/
inductive TransitionReason where
  | none
  | startupRequested
  | selfTestSucceeded
  | warningPersisted
  | readingsRecovered
  | criticalReading
  | sensorOffline
  | internalResourceFailure
  | manualReset
  | shutdownRequested
  deriving DecidableEq, Repr

/-- `domain::StateTransition`. -/
structure StateTransition where
  previous : MotorState := .booting
  current : MotorState := .booting
  reason : TransitionReason := .none
  changed : Bool := false
  deriving DecidableEq, Repr

/-- `domain::EventKind`. -/
inductive EventKind where
  | startup
  | selfTestPassed
  | sensorSample
  | resetRequested
  | shutdownRequested
  | internalFault
  deriving DecidableEq, Repr

/-- `domain::Event`: every kind carries a sample, a default one unless it is a
`sensorSample`. -/
structure Event where
  kind : EventKind := .startup
  sample : SensorSample := {}
  deriving DecidableEq, Repr

namespace Event

def startup : Event := { kind := .startup }
def selfTestPassed : Event := { kind := .selfTestPassed }
def sensorSample (value : SensorSample) : Event := { kind := .sensorSample, sample := value }
def resetRequested : Event := { kind := .resetRequested }
def shutdownRequested : Event := { kind := .shutdownRequested }
def internalFault : Event := { kind := .internalFault }

end Event

end EdgeSentinel
