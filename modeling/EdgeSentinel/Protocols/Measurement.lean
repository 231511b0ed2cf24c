import EdgeSentinel.Domain

/-! The measurements that every bus delivers, and what each does to a sample. -/
namespace EdgeSentinel

inductive MeasurementKind where
  | temperature
  | vibration
  | current
  | online
  deriving DecidableEq, Repr

namespace MeasurementKind

/- The values of the enumeration in the source. -/
def code : MeasurementKind → UInt8
  | .temperature => 1
  | .vibration => 2
  | .current => 3
  | .online => 4

/-- The range check of the decoder together with the cast after it. -/
def ofCode (value : UInt8) : Option MeasurementKind :=
  if value = 1 then some .temperature
  else if value = 2 then some .vibration
  else if value = 3 then some .current
  else if value = 4 then some .online
  else none

@[simp] theorem ofCode_code (kind : MeasurementKind) : ofCode kind.code = some kind := by
  cases kind <;> rfl

theorem code_ofCode {value : UInt8} {kind : MeasurementKind} (h : ofCode value = some kind) :
    kind.code = value := by
  unfold ofCode at h
  split at h
  · cases h; rename_i eq; exact eq.symm
  · split at h
    · cases h; rename_i eq; exact eq.symm
    · split at h
      · cases h; rename_i eq; exact eq.symm
      · split at h
        · cases h; rename_i eq; exact eq.symm
        · contradiction

end MeasurementKind

/-- `protocols::Measurement`. -/
structure Measurement where
  kind : MeasurementKind := .temperature
  value : Double := .finite 0
  deriving DecidableEq, Repr

def applyMeasurement (sample : SensorSample) (measurement : Measurement) : SensorSample :=
  match measurement.kind with
  | .temperature => { sample with temperatureC := measurement.value }
  | .vibration => { sample with vibrationMmS := measurement.value }
  | .current => { sample with currentA := measurement.value }
  | .online => { sample with online := measurement.value ≠ .finite 0 }

/- The three readings of a sample. -/
def SensorSample.readings (sample : SensorSample) : Double × Double × Double :=
  (sample.temperatureC, sample.vibrationMmS, sample.currentA)

theorem applyMeasurement_online {measurement : Measurement} (kind : measurement.kind = .online)
    (sample : SensorSample) :
    applyMeasurement sample measurement =
      { sample with online := measurement.value ≠ .finite 0 } := by
  rw [applyMeasurement, kind]

end EdgeSentinel
