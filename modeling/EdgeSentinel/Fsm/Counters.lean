import EdgeSentinel.Fsm.Step

/-! The incremental counters against their history. `sinceTransition` replays
nothing: it reads off the handled events and the reported transitions which
samples came after the last `transitionTo`, and the counters are then the
lengths of suffixes of that list. -/
namespace EdgeSentinel.MotorStateMachine

/-- The sample an event brings, if it is a `sensorSample`. -/
def sampleOf (event : Event) : Option SensorSample :=
  if event.kind = .sensorSample then some event.sample else none

/-- The samples handled since `transitionTo` last ran, or since construction.
Only `unchanged` reports the reason `none`. -/
def sinceTransition (config : ProtectionConfig) (events : List Event) : List SensorSample :=
  ((Mealy.trace handle (initial config) events).rtakeWhile
    (fun handled => handled.2.reason = .none)).filterMap (fun handled => sampleOf handled.1)

theorem sinceTransition_concat (config : ProtectionConfig) (events : List Event) (event : Event) :
    sinceTransition config (events ++ [event]) =
      if (handle (Mealy.final handle (initial config) events) event).2.reason = .none then
        sinceTransition config events ++ (sampleOf event).toList
      else [] := by
  simp only [sinceTransition, Mealy.trace_concat, List.rtakeWhile_concat, decide_eq_true_eq]
  split
  · cases sample : sampleOf event <;> simp [List.filterMap_append, sample]
  · rfl

/-- The joint invariant of the four counters: each is the length of a suffix of
the samples since the last transition, and the ones that decide in the current
state have not reached their configured count. -/
structure CountsHistory (m : MotorStateMachine) (samples : List SensorSample) : Prop where
  idle : ¬ m.Protecting → m.offlineCount = 0 ∧ m.criticalCount = 0 ∧ m.warningCount = 0 ∧
    m.recoveryCount = 0
  offline : m.Protecting → m.offlineCount = samples.suffixCount isOffline
  critical : m.Protecting → m.criticalCount = samples.suffixCount (onlineCritical m.config)
  warning : m.Protecting →
    m.warningCount = samples.suffixCount (onlineWarning m.config) % 2 ^ 64
  recovery : m.state = .degraded →
    m.recoveryCount = samples.suffixCount (onlineRecovered m.config)
  noRecovery : m.state = .healthy → m.recoveryCount = 0
  offlineBelow : m.Protecting → m.offlineCount = 0 ∨ m.offlineCount < m.config.offlineSamples.toNat
  criticalBelow : m.Protecting →
    m.criticalCount = 0 ∨ m.criticalCount < m.config.criticalSamples.toNat
  warningBelow : m.state = .healthy →
    samples.suffixCount (onlineWarning m.config) = 0 ∨
      samples.suffixCount (onlineWarning m.config) < m.config.warningSamples.toNat
  recoveryBelow : m.state = .degraded →
    m.recoveryCount = 0 ∨ m.recoveryCount < m.config.recoverySamples.toNat

/-- What it means that no counter calls for a transition. -/
theorem decision_none {m : MotorStateMachine} {sample : SensorSample}
    (h : decision m sample = none) :
    (sample.online = false → m.offlineCount < m.config.offlineSamples.toNat) ∧
    (sample.online = true → m.criticalCount < m.config.criticalSamples.toNat) ∧
    (sample.online = true → m.state = .healthy →
      m.warningCount < m.config.warningSamples.toNat) ∧
    (sample.online = true → m.state = .degraded →
      m.recoveryCount < m.config.recoverySamples.toNat) := by
  unfold decision at h
  cases online : sample.online with
  | false =>
    simp only [online, Bool.not_false, if_true, ite_eq_right_iff, reduceCtorEq, imp_false] at h
    exact ⟨fun _ => Nat.lt_of_not_le h, nofun, nofun, nofun⟩
  | true =>
    simp only [online, Bool.not_true, Bool.false_eq_true, if_false] at h
    split at h
    · contradiction
    · rename_i calm
      split at h
      · contradiction
      · rename_i steady
        split at h
        · contradiction
        · rename_i low
          exact ⟨nofun, fun _ => Nat.lt_of_not_le calm,
            fun _ healthy => Nat.lt_of_not_le (fun reached => steady ⟨healthy, reached⟩),
            fun _ degraded => Nat.lt_of_not_le (fun reached => low ⟨degraded, reached⟩)⟩

/-- One counter: moving it by one sample keeps it equal to its suffix length. -/
theorem counter_step {p : SensorSample → Bool} {samples : List SensorSample} {count : Nat}
    {limit : UInt64} (sample : SensorSample) (exact : count = samples.suffixCount p)
    (below : count = 0 ∨ count < limit.toNat) :
    (if p sample then SizeT.increment count else 0) = (samples ++ [sample]).suffixCount p := by
  rw [List.suffixCount_concat, SizeT.increment_below limit.toNat_lt below, exact]

/-- The warning counter keeps running in `degraded`, so it is exact modulo 2^64
only. -/
theorem warning_step {p : SensorSample → Bool} {samples : List SensorSample} {count : Nat}
    (sample : SensorSample) (exact : count = samples.suffixCount p % 2 ^ 64) :
    (if p sample then SizeT.increment count else 0) =
      (samples ++ [sample]).suffixCount p % 2 ^ 64 := by
  rw [List.suffixCount_concat, exact]
  split <;> simp [SizeT.increment]

/-- In `healthy` the warning counter has not wrapped, one more sample included. -/
theorem CountsHistory.warning_exact {m : MotorStateMachine} {samples : List SensorSample}
    (h : CountsHistory m samples) (healthy : m.state = .healthy) (sample : SensorSample) :
    (m.counted SizeT.increment sample).warningCount =
      (samples ++ [sample]).suffixCount (onlineWarning m.config) := by
  have small : m.warningCount = samples.suffixCount (onlineWarning m.config) := by
    have limit := m.config.warningSamples.toNat_lt
    have below := h.warningBelow healthy
    have value := h.warning (.inl healthy)
    omega
  exact counter_step sample small (small ▸ h.warningBelow healthy)

theorem CountsHistory.recovery_exact {m : MotorStateMachine} {samples : List SensorSample}
    (h : CountsHistory m samples) (degraded : m.state = .degraded) (sample : SensorSample) :
    (m.counted SizeT.increment sample).recoveryCount =
      (samples ++ [sample]).suffixCount (onlineRecovered m.config) := by
  simp only [MotorStateMachine.counted, degraded, true_and]
  exact counter_step sample (h.recovery degraded) (h.recoveryBelow degraded)

theorem CountsHistory.counted {m : MotorStateMachine} {samples : List SensorSample}
    (h : CountsHistory m samples) (active : m.Protecting) (sample : SensorSample)
    (calm : decision (m.counted SizeT.increment sample) sample = none) :
    CountsHistory (m.counted SizeT.increment sample) (samples ++ [sample]) := by
  obtain ⟨offlineLow, criticalLow, warningLow, recoveryLow⟩ := decision_none calm
  refine
    { idle := fun idle => absurd active idle
      offline := fun _ => counter_step sample (h.offline active) (h.offlineBelow active)
      critical := fun _ => counter_step sample (h.critical active) (h.criticalBelow active)
      warning := fun _ => warning_step sample (h.warning active)
      recovery := fun degraded => h.recovery_exact degraded sample
      noRecovery := ?_, offlineBelow := ?_, criticalBelow := ?_, warningBelow := ?_
      recoveryBelow := ?_ }
  · intro healthy
    have healthy : m.state = .healthy := healthy
    simp [MotorStateMachine.counted, healthy]
  · intro _
    cases online : sample.online with
    | true => exact .inl (by simp [MotorStateMachine.counted, isOffline, online])
    | false => exact .inr (offlineLow online)
  · intro _
    cases online : sample.online with
    | true => exact .inr (criticalLow online)
    | false => exact .inl (by simp [MotorStateMachine.counted, onlineCritical, online])
  · intro healthy
    rw [counted_config, ← h.warning_exact healthy sample]
    cases online : sample.online with
    | true => exact .inr (warningLow online healthy)
    | false => exact .inl (by simp [MotorStateMachine.counted, onlineWarning, online])
  · intro degraded
    cases online : sample.online with
    | true => exact .inr (recoveryLow online degraded)
    | false => exact .inl (by simp [MotorStateMachine.counted, onlineRecovered, online])

/-- A machine that has just run `transitionTo` has an empty history. -/
theorem countsHistory_reset {m : MotorStateMachine} (offline : m.offlineCount = 0)
    (critical : m.criticalCount = 0) (warning : m.warningCount = 0)
    (recovery : m.recoveryCount = 0) : CountsHistory m [] where
  idle _ := ⟨offline, critical, warning, recovery⟩
  offline _ := offline
  critical _ := critical
  warning _ := warning
  recovery _ := recovery
  noRecovery _ := recovery
  offlineBelow _ := .inl offline
  criticalBelow _ := .inl critical
  warningBelow _ := .inl rfl
  recoveryBelow _ := .inl recovery

theorem countsHistory_handle {m : MotorStateMachine} {samples : List SensorSample}
    (h : CountsHistory m samples) (event : Event) :
    CountsHistory (handle m event).1
      (if (handle m event).2.reason = .none then samples ++ (sampleOf event).toList else []) := by
  obtain ⟨n, next, reason, ran, -, eq⟩ | ⟨sampled, active, calm, eq⟩ | ⟨other, last, seen, eq⟩ :=
    handleWith_cases SizeT.increment m event <;> simp only [handle, eq]
  · rw [transitionTo_reason, if_neg ran]
    exact countsHistory_reset rfl rfl rfl rfl
  · have sample : (sampleOf event).toList = [event.sample] := by simp [sampleOf, sampled]
    rw [unchanged_reason, if_pos rfl, sample]
    exact h.counted active event.sample calm
  · rw [unchanged_reason, if_pos rfl]
    by_cases active : m.Protecting
    · have none : sampleOf event = none := if_neg (fun sampled => other ⟨sampled, active⟩)
      rw [none, Option.toList_none, List.append_nil]
      exact ⟨h.idle, h.offline, h.critical, h.warning, h.recovery, h.noRecovery, h.offlineBelow,
        h.criticalBelow, h.warningBelow, h.recoveryBelow⟩
    · have degraded : m.state ≠ .degraded := fun h => active (.inr h)
      have healthy : m.state ≠ .healthy := fun h => active (.inl h)
      exact
        { idle := h.idle
          offline := (absurd · active)
          critical := (absurd · active)
          warning := (absurd · active)
          recovery := (absurd · degraded)
          noRecovery := (absurd · healthy)
          offlineBelow := (absurd · active)
          criticalBelow := (absurd · active)
          warningBelow := (absurd · healthy)
          recoveryBelow := (absurd · degraded) }

theorem run_countsHistory (config : ProtectionConfig) (events : List Event) :
    CountsHistory (Mealy.final handle (initial config) events) (sinceTransition config events) := by
  refine Mealy.history_induction handle (P := fun events m =>
    CountsHistory m (sinceTransition config events)) ?_ ?_ events
  · exact countsHistory_reset rfl rfl rfl rfl
  · rintro past m event h rfl
    rw [sinceTransition_concat]
    exact countsHistory_handle h event

theorem run_config (config : ProtectionConfig) (events : List Event) :
    (Mealy.final handle (initial config) events).config = config :=
  Mealy.invariant handle (P := fun m => m.config = config) rfl
    (fun m event h => (handleWith_config SizeT.increment m event).trans h) events

/-- The transition that the history calls for when one more sample arrives in a
protecting state, told by its reason. -/
def Due (config : ProtectionConfig) (state : MotorState) (samples : List SensorSample)
    (sample : SensorSample) : TransitionReason → Prop
  | .sensorOffline =>
    sample.online = false ∧
      config.offlineSamples.toNat ≤ (samples ++ [sample]).suffixCount isOffline
  | .criticalReading =>
    sample.online = true ∧
      config.criticalSamples.toNat ≤ (samples ++ [sample]).suffixCount (onlineCritical config)
  | .warningPersisted =>
    sample.online = true ∧ state = .healthy ∧
      ¬ config.criticalSamples.toNat ≤ (samples ++ [sample]).suffixCount (onlineCritical config) ∧
      config.warningSamples.toNat ≤ (samples ++ [sample]).suffixCount (onlineWarning config)
  | .readingsRecovered =>
    sample.online = true ∧ state = .degraded ∧
      ¬ config.criticalSamples.toNat ≤ (samples ++ [sample]).suffixCount (onlineCritical config) ∧
      config.recoverySamples.toNat ≤ (samples ++ [sample]).suffixCount (onlineRecovered config)
  | _ => False

/-- The reason that the counters of a protecting machine call for. -/
theorem settle_decision_reason (m : MotorStateMachine) (sample : SensorSample)
    (reason : TransitionReason) (some : reason ≠ .none) :
    (m.settle (decision m sample)).2.reason = reason ↔
      (sample.online = false ∧ m.config.offlineSamples.toNat ≤ m.offlineCount ∧
        reason = .sensorOffline) ∨
      (sample.online = true ∧ m.config.criticalSamples.toNat ≤ m.criticalCount ∧
        reason = .criticalReading) ∨
      (sample.online = true ∧ ¬ m.config.criticalSamples.toNat ≤ m.criticalCount ∧
        m.state = .healthy ∧ m.config.warningSamples.toNat ≤ m.warningCount ∧
        reason = .warningPersisted) ∨
      (sample.online = true ∧ ¬ m.config.criticalSamples.toNat ≤ m.criticalCount ∧
        m.state = .degraded ∧ m.config.recoverySamples.toNat ≤ m.recoveryCount ∧
        reason = .readingsRecovered) := by
  unfold decision
  simp only [settle_ite, settle_some, settle_none]
  cases online : sample.online with
  | false =>
    simp only [Bool.not_false, if_true]
    split <;> cases reason <;> simp_all
  | true =>
    simp only [Bool.not_true, Bool.false_eq_true, if_false]
    split
    · cases reason <;> simp_all
    · split
      · cases reason <;> simp_all
      · split <;> cases reason <;> simp_all

theorem CountsHistory.reason_iff_due {m : MotorStateMachine} {samples : List SensorSample}
    (h : CountsHistory m samples) (active : m.Protecting) (sample : SensorSample)
    (reason : TransitionReason) (some : reason ≠ .none) :
    (handle m (.sensorSample sample)).2.reason = reason ↔
      Due m.config m.state samples sample reason := by
  have offline : (m.counted SizeT.increment sample).offlineCount = _ :=
    counter_step sample (h.offline active) (h.offlineBelow active)
  have critical : (m.counted SizeT.increment sample).criticalCount = _ :=
    counter_step sample (h.critical active) (h.criticalBelow active)
  have warning := fun healthy => h.warning_exact healthy sample
  have recovery := fun degraded => h.recovery_exact degraded sample
  rw [handle, handleWith_judged SizeT.increment m (.sensorSample sample) rfl active,
    Event.sensorSample, settle_decision_reason _ sample reason some, offline, critical]
  simp only [counted_config, counted_state]
  cases reason <;> simp only [Due] <;> grind

/-- For every configuration and every run, the counters are the lengths of the
suffixes of the samples handled since the last transition, and a sample causes
a transition exactly when the suffix it completes reaches the configured count. -/
theorem counters_equal_history (config : ProtectionConfig) (events : List Event) :
    let m := Mealy.final handle (initial config) events
    let samples := sinceTransition config events
    (m.Protecting →
      m.offlineCount = samples.suffixCount isOffline ∧
      m.criticalCount = samples.suffixCount (onlineCritical config) ∧
      m.warningCount = samples.suffixCount (onlineWarning config) % 2 ^ 64 ∧
      m.recoveryCount =
        if m.state = .degraded then samples.suffixCount (onlineRecovered config) else 0) ∧
    (¬ m.Protecting →
      m.offlineCount = 0 ∧ m.criticalCount = 0 ∧ m.warningCount = 0 ∧ m.recoveryCount = 0) ∧
    (m.Protecting → ∀ sample reason, reason ≠ TransitionReason.none →
      ((handle m (.sensorSample sample)).2.reason = reason ↔
        Due config m.state samples sample reason)) := by
  intro m samples
  have h : CountsHistory m samples := run_countsHistory config events
  have same : m.config = config := run_config config events
  refine ⟨fun active => ⟨h.offline active, ?_, ?_, ?_⟩, h.idle, ?_⟩
  · exact same ▸ h.critical active
  · exact same ▸ h.warning active
  · split
    · rename_i degraded
      exact same ▸ h.recovery degraded
    · rename_i other
      exact h.noRecovery (active.resolve_right other)
  · intro active sample reason some
    exact same ▸ h.reason_iff_due active sample reason some

end EdgeSentinel.MotorStateMachine
