import EdgeSentinel.Runtime.Lifecycle

/-! The threads of the runtime: which of them exist, which have been told to stop, and
which have been joined, by how far `start` and `stop` have come. -/
namespace EdgeSentinel

/- The sensor thread exists. -/
def StartStep.hasSensor : StartStep → Bool
  | .spawningMonitor | .returned => true
  | _ => false

namespace StopStep

def stopsSensor : StopStep → Bool
  | .publishing | .refusing | .awaitingState | .stoppingSensor => false
  | _ => true

def stopsMonitor : StopStep → Bool
  | .stoppingMonitor => false
  | step => step.stopsSensor

def joinedSensor : StopStep → Bool
  | .joiningSensor => false
  | step => step.stopsMonitor

def joinedMonitor : StopStep → Bool
  | .joiningMonitor => false
  | step => step.joinedSensor

end StopStep

namespace EdgeRuntime

structure Threads (r : EdgeRuntime) : Prop where
  control : ∀ s, r.start = some s → s.hasControl = true → r.control ≠ .absent
  sensor : ∀ s, r.start = some s → s.hasSensor = true → r.sensor ≠ .absent
  monitor : r.start = some .returned → r.monitor ≠ .absent
  unspawned : (∀ s, r.start = some s → s.hasSensor = false) → r.sensor = .absent
  awaited : ∀ index, r.sensor = .awaiting index → index < r.calls.length
  sensorStop : ∀ c, r.stop = some c → c.step.stopsSensor = true → r.sensorStop = true
  monitorStop : ∀ c, r.stop = some c → c.step.stopsMonitor = true → r.monitorStop = true
  sensorGone : ∀ c, r.stop = some c → c.step.joinedSensor = true → r.sensor = .exited
  monitorGone : ∀ c, r.stop = some c → c.step.joinedMonitor = true → r.monitor = .exited

section Steps

variable {layout : Layout} {protection : ProtectionConfig} {r r' : EdgeRuntime} {note : Note}

theorem threads_initial {hasSensor : Bool} : Threads (initial protection hasSensor) where
  control := nofun
  sensor := nofun
  monitor := nofun
  unspawned _ := rfl
  awaited := nofun
  sensorStop := nofun
  monitorStop := nofun
  sensorGone := nofun
  monitorGone := nofun

/-- A step of the pipeline. -/
theorem Threads.flow (h : Threads r) {q : Pipeline} (calls : r.calls.length ≤ q.calls.length)
    (present : r.control ≠ .absent → q.control ≠ .absent) :
    Threads { r with toPipeline := q } where
  control s started has := present (h.control s started has)
  sensor := h.sensor
  monitor := h.monitor
  unspawned := h.unspawned
  awaited index waiting := Nat.lt_of_lt_of_le (h.awaited index waiting) calls
  sensorStop := h.sensorStop
  monitorStop := h.monitorStop
  sensorGone := h.sensorGone
  monitorGone := h.monitorGone

theorem Threads.publish (h : Threads r) (event : Event) : Threads (r.publish event) :=
  h.flow (by simp [Pipeline.call]) id

/-- One more step of `start`. -/
theorem Threads.rise (unstopped : r'.stop = none) {next : StartStep}
    (start : r'.start = some next) (control : next.hasControl = true → r'.control ≠ .absent)
    (sensor : next.hasSensor = true → r'.sensor ≠ .absent)
    (monitor : next = .returned → r'.monitor ≠ .absent)
    (unspawned : next.hasSensor = false → r'.sensor = .absent)
    (awaited : ∀ index, r'.sensor = .awaiting index → index < r'.calls.length) :
    Threads r' := by
  refine ⟨?_, ?_, ?_, fun early => unspawned (early next start), awaited, ?_, ?_, ?_, ?_⟩
  · intro s started has
    cases start.symm.trans started
    exact control has
  · intro s started has
    cases start.symm.trans started
    exact sensor has
  · intro started
    cases start.symm.trans started
    exact monitor rfl
  all_goals simp [unstopped]

theorem Threads.starts (h : Threads r) (staged : Staged r) (moved : Starts r r') :
    Threads r' := by
  by_cases done : r.start = some .returned
  · cases moved with
    | again _ => exact h
    | _ stage =>
      rw [done] at stage
      cases stage
  have unstopped := staged.unstopped done
  have unborn : ∀ s, r.start = some s → s.hasSensor = false → r.sensor = .absent := by
    intro s started early
    apply h.unspawned
    intro s' started'
    cases started.symm.trans started'
    exact early
  cases moved with
  | enters stage =>
    exact .rise unstopped rfl nofun nofun nofun (fun _ => h.unspawned (by simp [stage])) h.awaited
  | opens stage =>
    exact .rise unstopped rfl nofun nofun nofun (fun _ => unborn _ stage rfl) h.awaited
  | raises stage =>
    exact .rise unstopped rfl nofun nofun nofun (fun _ => unborn _ stage rfl) h.awaited
  | spawnsControl stage =>
    exact .rise unstopped rfl (fun _ => nofun) nofun nofun (fun _ => unborn _ stage rfl) h.awaited
  | callsStartup stage =>
    exact .rise unstopped rfl (fun _ => h.control _ stage rfl) nofun nofun
      (fun _ => unborn _ stage rfl) (h.publish .startup).awaited
  | callsSelfTest stage returned =>
    exact .rise unstopped rfl (fun _ => h.control _ stage rfl) nofun nofun
      (fun _ => unborn _ stage rfl) (h.publish .selfTestPassed).awaited
  | tested stage returned =>
    exact .rise unstopped rfl (fun _ => h.control _ stage rfl) nofun nofun
      (fun _ => unborn _ stage rfl) h.awaited
  | spawnsSensor stage =>
    exact .rise unstopped rfl (fun _ => h.control _ stage rfl) (fun _ => nofun) nofun nofun nofun
  | spawnsMonitor stage =>
    exact .rise unstopped rfl (fun _ => h.control _ stage rfl) (fun _ => h.sensor _ stage rfl)
      (fun _ => nofun) nofun h.awaited
  | again stage => exact absurd stage done

/-- One more step of `stop`. -/
theorem Threads.proceed (h : Threads r) {c : StopCall} {next : StopStep} {q : Pipeline}
    {running sensorStop monitorStop : Bool} (calls : q.calls = r.calls)
    (control : q.control = r.control)
    (sensor : next.stopsSensor = true → sensorStop = true)
    (monitor : next.stopsMonitor = true → monitorStop = true)
    (sensorGone : next.joinedSensor = true → r.sensor = .exited)
    (monitorGone : next.joinedMonitor = true → r.monitor = .exited) :
    Threads { r with
      toPipeline := q, running, sensorStop, monitorStop
      stop := some { c with step := next } } := by
  refine ⟨?_, h.sensor, h.monitor, h.unspawned, ?_, ?_, ?_, ?_, ?_⟩
  · intro s started has
    rw [control]
    exact h.control s started has
  · rw [calls]
    exact h.awaited
  · rintro c ⟨⟩
    exact sensor
  · rintro c ⟨⟩
    exact monitor
  · rintro c ⟨⟩
    exact sensorGone
  · rintro c ⟨⟩
    exact monitorGone

theorem Threads.stops (h : Threads r) {c : StopCall} (current : r.stop = some c)
    (moved : Stops r c r') : Threads r' := by
  have sensor := h.sensorStop c current
  have monitor := h.monitorStop c current
  have sensorGone := h.sensorGone c current
  have monitorGone := h.monitorGone c current
  cases moved with
  | published stage returned => exact h.proceed rfl rfl nofun nofun nofun nofun
  | refuses stage => exact h.proceed rfl rfl nofun nofun nofun nofun
  | waited stage => exact h.proceed rfl rfl nofun nofun nofun nofun
  | stopsSensor stage => exact h.proceed rfl rfl (fun _ => rfl) nofun nofun nofun
  | stopsMonitor stage =>
    rw [stage] at sensor
    exact h.proceed rfl rfl sensor (fun _ => rfl) nofun nofun
  | joinsSensor stage gone =>
    rw [stage] at sensor monitor
    exact h.proceed rfl rfl sensor monitor (fun _ => gone) nofun
  | joinsMonitor stage gone =>
    rw [stage] at sensor monitor sensorGone
    exact h.proceed rfl rfl sensor monitor sensorGone (fun _ => gone)
  | again stage => exact h
  | _ stage =>
    rw [stage] at sensor monitor sensorGone monitorGone
    exact h.proceed rfl rfl sensor monitor sensorGone monitorGone

/- The sensor's thread moves, so it is there and has not been joined yet. -/
theorem Threads.turn (h : Threads r) (alive : r.sensor ≠ .absent ∧ r.sensor ≠ .exited)
    {next : SensorStep} (present : next ≠ .absent)
    (awaited : ∀ index, next = .awaiting index → index < r.calls.length) :
    Threads { r with sensor := next } := by
  refine ⟨h.control, fun _ _ _ => present, h.monitor, ?_, awaited, h.sensorStop, h.monitorStop, ?_,
    h.monitorGone⟩
  · intro early
    exact absurd (h.unspawned early) alive.1
  · intro c current joined
    exact absurd (h.sensorGone c current joined) alive.2

theorem Senses.alive {sample : SensorSample} (moved : Senses r sample r') :
    r.sensor ≠ .absent ∧ r.sensor ≠ .exited := by
  cases moved with
  | exits stage stopped => rcases stage with stage | stage <;> simp [stage]
  | _ stage => simp [stage]

theorem Threads.senses (h : Threads r) {sample : SensorSample} (moved : Senses r sample r') :
    Threads r' := by
  have alive := moved.alive
  cases moved with
  | publishes stage present running =>
    apply (h.publish (.sensorSample sample)).turn alive (by simp)
    rintro index ⟨⟩
    simp [EdgeRuntime.publish, Pipeline.call]
  | _ => exact h.turn alive (by simp) (by simp)

theorem Threads.monitors (h : Threads r) (moved : Monitors r r') : Threads r' := by
  cases moved with
  | exits stage stopped =>
    exact ⟨h.control, h.sensor, fun _ => nofun, h.unspawned, h.awaited, h.sensorStop,
      h.monitorStop, h.sensorGone, fun _ _ _ => rfl⟩
  | ticks stage running => exact h.flow (Nat.le_refl _) id

theorem Threads.step (h : Threads r) (staged : Staged r) {label : Label}
    (moved : step layout r label = some (r', note)) : Threads r' := by
  cases step_cases moved with
  | starts taken => exact h.starts staged taken
  | unstarted stage => exact h
  | requests started unstopped =>
    have published := h.publish .shutdownRequested
    refine ⟨published.control, published.sensor, published.monitor, published.unspawned,
      published.awaited, ?_, ?_, ?_, ?_⟩
    all_goals
      rintro c ⟨⟩
      exact nofun
  | stops current taken => exact h.stops current taken
  | publishes event => exact h.publish event
  | advances here taken =>
    obtain ⟨control, -, -, -⟩ := (Pipeline.advance_cases taken).frame
    obtain ⟨-, step, calls⟩ := (Pipeline.advance_cases taken).calls
    exact h.flow (by simp [calls]) (control ▸ id)
  | controls taken =>
    have controls := Pipeline.controlLoop_cases taken
    refine h.flow (Nat.le_of_eq (congrArg List.length controls.frame.1.symm)) fun _ => ?_
    cases controls <;> exact nofun
  | senses taken => exact h.senses taken
  | monitors taken => exact h.monitors taken

/-- What one step of `stop` can be, with its first one. -/
inductive Halts (r : EdgeRuntime) : EdgeRuntime → Prop where
  | unstarted (stage : r.start = none) : Halts r r
  | requests (started : r.start = some .returned) (unstopped : r.stop = none) :
      Halts r { r.publish .shutdownRequested with stop := some { call := r.calls.length } }
  | stops {c : StopCall} {r' : EdgeRuntime} (current : r.stop = some c) (moved : Stops r c r') :
      Halts r r'

theorem stopStep_cases (moved : r.stopStep = some r') : Halts r r' := by
  have step : r.step ⟨1, 1, Nat.one_pos, Nat.one_pos⟩ .stop = some (r', .silent) := by
    simp [EdgeRuntime.step, moved]
  cases step_cases step with
  | unstarted stage => exact .unstarted stage
  | requests started unstopped => exact .requests started unstopped
  | stops current taken => exact .stops current taken

theorem Stops.start {c : StopCall} (moved : Stops r c r') : r'.start = r.start := by
  cases moved <;> rfl

theorem Senses.start {sample : SensorSample} (moved : Senses r sample r') :
    r'.start = r.start := by
  cases moved <;> rfl

theorem Monitors.start (moved : Monitors r r') : r'.start = r.start := by
  cases moved <;> rfl

end Steps

end EdgeRuntime

end EdgeSentinel
