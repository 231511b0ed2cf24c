import EdgeSentinel.Fsm.Counters

/-! Persistent critical readings. Every critical sample also counts as a
warning, and the transition to `degraded` clears the critical counter, so the
outcome of a critical run depends on the warnings that came before it. -/
namespace EdgeSentinel.MotorStateMachine

/-- Positive sample counts, and critical thresholds at or above the warning
thresholds, as in the default configuration. -/
structure Graded (config : ProtectionConfig) : Prop where
  warningPositive : 0 < config.warningSamples
  criticalPositive : 0 < config.criticalSamples
  recoveryPositive : 0 < config.recoverySamples
  offlinePositive : 0 < config.offlineSamples
  temperature : config.temperatureWarningC ≤ config.temperatureCriticalC
  vibration : config.vibrationWarningMmS ≤ config.vibrationCriticalMmS
  current : config.currentWarningA ≤ config.currentCriticalA

theorem graded_default : Graded {} := by
  constructor <;> decide

theorem Graded.critical_is_warning {config : ProtectionConfig} (graded : Graded config)
    {sample : SensorSample} (critical : config.isCritical sample = true) :
    config.isWarning sample = true := by
  simp only [ProtectionConfig.isCritical, ProtectionConfig.isWarning, Bool.or_eq_true,
    decide_eq_true_eq, ge_iff_le] at critical ⊢
  rcases critical with (hot | shaking) | loaded
  · exact .inl (.inl (Double.le_trans graded.temperature hot))
  · exact .inl (.inr (Double.le_trans graded.vibration shaking))
  · exact .inr (Double.le_trans graded.current loaded)

/-- The samples of a run, handled with no other event in between. -/
def afterSamples (m : MotorStateMachine) (run : List SensorSample) : MotorStateMachine :=
  Mealy.final handle m (run.map Event.sensorSample)

@[simp] theorem afterSamples_nil (m : MotorStateMachine) : afterSamples m [] = m := rfl

@[simp] theorem afterSamples_cons (m : MotorStateMachine) (sample : SensorSample)
    (run : List SensorSample) :
    afterSamples m (sample :: run) =
      afterSamples (handle m (.sensorSample sample)).1 run := rfl

theorem afterSamples_latched {m : MotorStateMachine} (latched : m.state = .faultLatched)
    (run : List SensorSample) : (afterSamples m run).state = .faultLatched := by
  induction run generalizing m with
  | nil => exact latched
  | cons sample rest ih =>
    have idle : ¬ m.Protecting := by simp [Protecting, latched]
    obtain ⟨last, seen, eq⟩ :=
      handleWith_ignored SizeT.increment m (.sensorSample sample) rfl idle
    rw [afterSamples_cons, handle, eq]
    exact ih latched

/-- One critical sample in a protecting state, with the critical counter below
its limit: the fault comes first, then the warning, and recovery never. -/
theorem handle_critical {m : MotorStateMachine} (graded : Graded m.config)
    (active : m.Protecting) (below : m.criticalCount < m.config.criticalSamples.toNat)
    {sample : SensorSample} (critical : onlineCritical m.config sample = true) :
    ∃ n : MotorStateMachine, (handle m (.sensorSample sample)).1 = n ∧ n.config = m.config ∧
      if m.config.criticalSamples.toNat ≤ m.criticalCount + 1 then n.state = .faultLatched
      else if m.state = .healthy ∧
          m.config.warningSamples.toNat ≤ SizeT.increment m.warningCount then
        n.state = .degraded ∧ n.criticalCount = 0
      else n.state = m.state ∧ n.criticalCount = m.criticalCount + 1 ∧
        n.warningCount = SizeT.increment m.warningCount := by
  have parts : sample.online = true ∧ m.config.isCritical sample = true := by
    simpa only [onlineCritical, Bool.and_eq_true] using critical
  have warning := graded.critical_is_warning parts.2
  have next : SizeT.increment m.criticalCount = m.criticalCount + 1 :=
    SizeT.increment_below m.config.criticalSamples.toNat_lt (.inr below)
  have noRecovery : ¬ m.config.recoverySamples.toNat ≤ 0 :=
    Nat.not_le_of_lt (UInt64.lt_iff_toNat_lt.mp graded.recoveryPositive)
  refine ⟨_, rfl, handleWith_config SizeT.increment m _, ?_⟩
  rw [handle, handleWith_judged SizeT.increment m (.sensorSample sample) rfl active,
    Event.sensorSample]
  simp only [decision, counted, isOffline, onlineCritical, onlineWarning, onlineRecovered, parts,
    warning, next, Bool.not_true, Bool.true_and, Bool.and_self, Bool.false_and, Bool.false_eq_true,
    if_true, if_false, and_false, noRecovery, settle_ite, settle_some, settle_none]
  split
  · rfl
  · split
    · exact ⟨rfl, rfl⟩
    · exact ⟨rfl, rfl, rfl⟩

theorem degraded_run {m : MotorStateMachine} (graded : Graded m.config)
    (degraded : m.state = .degraded)
    (below : m.criticalCount < m.config.criticalSamples.toNat) (run : List SensorSample)
    (critical : ∀ sample ∈ run, onlineCritical m.config sample = true) :
    (afterSamples m run).state = .faultLatched ↔
      m.config.criticalSamples.toNat ≤ m.criticalCount + run.length := by
  induction run generalizing m with
  | nil => simp [degraded, below]
  | cons sample rest ih =>
    obtain ⟨n, eq, same, outcome⟩ := handle_critical graded (.inr degraded) below
      (critical sample List.mem_cons_self)
    simp only [degraded, reduceCtorEq, false_and, if_false] at outcome
    rw [afterSamples_cons, eq, List.length_cons]
    split at outcome
    · rename_i reached
      exact iff_of_true (afterSamples_latched outcome rest) (by omega)
    · obtain ⟨state, count, -⟩ := outcome
      have tail := ih (same ▸ graded) state (by rw [count, same]; omega)
        (fun s member => same ▸ critical s (List.mem_cons_of_mem _ member))
      rw [tail, count, same]
      omega

/-- A critical run from `healthy`: the fault trips in time unless the warning
count is reached first, after which the critical count starts again. -/
theorem healthy_run {m : MotorStateMachine} (graded : Graded m.config)
    (healthy : m.state = .healthy)
    (criticalBelow : m.criticalCount < m.config.criticalSamples.toNat)
    (warningBelow : m.warningCount < m.config.warningSamples.toNat) (run : List SensorSample)
    (critical : ∀ sample ∈ run, onlineCritical m.config sample = true) :
    (afterSamples m run).state = .faultLatched ↔
      m.config.criticalSamples.toNat - m.criticalCount ≤
          m.config.warningSamples.toNat - m.warningCount ∧
        m.config.criticalSamples.toNat - m.criticalCount ≤ run.length ∨
      m.config.warningSamples.toNat - m.warningCount <
          m.config.criticalSamples.toNat - m.criticalCount ∧
        m.config.warningSamples.toNat - m.warningCount + m.config.criticalSamples.toNat ≤
          run.length := by
  induction run generalizing m with
  | nil =>
    have state : m.state ≠ .faultLatched := by simp [healthy]
    refine iff_of_false state ?_
    simp only [List.length_nil]
    omega
  | cons sample rest ih =>
    have next : SizeT.increment m.warningCount = m.warningCount + 1 :=
      SizeT.increment_below m.config.warningSamples.toNat_lt (.inr warningBelow)
    obtain ⟨n, eq, same, outcome⟩ := handle_critical graded (.inl healthy) criticalBelow
      (critical sample List.mem_cons_self)
    have tail : ∀ s ∈ rest, onlineCritical n.config s = true :=
      fun s member => same ▸ critical s (List.mem_cons_of_mem _ member)
    have positive : 0 < m.config.criticalSamples.toNat :=
      UInt64.lt_iff_toNat_lt.mp graded.criticalPositive
    simp only [healthy, true_and, next] at outcome
    rw [afterSamples_cons, eq, List.length_cons]
    split at outcome
    · exact iff_of_true (afterSamples_latched outcome rest) (by omega)
    · split at outcome
      · obtain ⟨state, count⟩ := outcome
        rw [degraded_run (same ▸ graded) state (by rw [count, same]; exact positive) rest tail,
          count, same]
        omega
      · obtain ⟨state, criticals, warnings⟩ := outcome
        rw [ih (same ▸ graded) state (by rw [criticals, same]; omega)
          (by rw [warnings, same]; omega) tail, criticals, warnings, same]
        omega

/-- In `healthy` the warning count is still short of its configured value. -/
theorem CountsHistory.warning_below {m : MotorStateMachine} {samples : List SensorSample}
    (h : CountsHistory m samples) (graded : Graded m.config) (healthy : m.state = .healthy) :
    m.warningCount < m.config.warningSamples.toNat := by
  have positive : 0 < m.config.warningSamples.toNat :=
    UInt64.lt_iff_toNat_lt.mp graded.warningPositive
  have value := h.warning (.inl healthy)
  have below := h.warningBelow healthy
  omega

theorem CountsHistory.critical_below {m : MotorStateMachine} {samples : List SensorSample}
    (h : CountsHistory m samples) (graded : Graded m.config) (active : m.Protecting) :
    m.criticalCount < m.config.criticalSamples.toNat := by
  have positive : 0 < m.config.criticalSamples.toNat :=
    UInt64.lt_iff_toNat_lt.mp graded.criticalPositive
  have below := h.criticalBelow active
  omega

/-- When a run of `criticalSamples` critical readings trips the protection: in
every reachable protecting state, exactly unless the machine is healthy and the
warning count will be complete before the critical count. -/
theorem critical_run_trips_iff (config : ProtectionConfig) (graded : Graded config)
    (events : List Event) (run : List SensorSample)
    (active : (Mealy.final handle (initial config) events).Protecting)
    (critical : ∀ sample ∈ run, onlineCritical config sample = true)
    (length : run.length = config.criticalSamples.toNat) :
    let m := Mealy.final handle (initial config) events
    (afterSamples m run).state = .faultLatched ↔
      (m.state = .degraded ∨
        config.criticalSamples.toNat - m.criticalCount ≤
          config.warningSamples.toNat - m.warningCount) := by
  intro m
  have same : m.config = config := run_config config events
  have history : CountsHistory m _ := run_countsHistory config events
  have tripping : Graded m.config := same ▸ graded
  have criticalBelow := history.critical_below tripping active
  have readings : ∀ sample ∈ run, onlineCritical m.config sample = true := same ▸ critical
  rw [← same] at length ⊢
  rcases active with healthy | degraded
  · have warningBelow := history.warning_below tripping healthy
    rw [healthy_run tripping healthy criticalBelow warningBelow run readings]
    have state : m.state ≠ .degraded := by rw [healthy]; decide
    simp only [state, false_or]
    omega
  · have counted := degraded_run tripping degraded criticalBelow run readings
    refine iff_of_true (counted.mpr ?_) (.inl degraded)
    omega

theorem critical_run_trips_iff_default :
    let hot : SensorSample := { temperatureC := .finite 105 }
    let m := Mealy.final handle (initial {}) [.startup, .selfTestPassed]
    (afterSamples m [hot, hot]).state = .faultLatched ↔
      (m.state = .degraded ∨ 2 - m.criticalCount ≤ 3 - m.warningCount) :=
  critical_run_trips_iff {} graded_default [.startup, .selfTestPassed]
    [{ temperatureC := .finite 105 }, { temperatureC := .finite 105 }]
    (by decide) (by decide) (by decide)

/-- Two warnings, then two critical readings under the default configuration:
the first critical reading completes the warning count, and the transition to
`degraded` forgets it. -/
theorem critical_run_missed :
    ¬ ∀ config : ProtectionConfig, Graded config → ∀ (events : List Event)
      (run : List SensorSample), (Mealy.final handle (initial config) events).Protecting →
      (∀ sample ∈ run, onlineCritical config sample = true) →
      run.length = config.criticalSamples.toNat →
      (afterSamples (Mealy.final handle (initial config) events) run).state = .faultLatched := by
  intro trips
  have state := trips {} graded_default
    [.startup, .selfTestPassed, .sensorSample { temperatureC := .finite 85 },
      .sensorSample { temperatureC := .finite 85 }]
    [{ temperatureC := .finite 105 }, { temperatureC := .finite 105 }]
    (by decide) (by decide) (by decide)
  revert state
  decide

end EdgeSentinel.MotorStateMachine
