import EdgeSentinel.Fsm.Counters

/-! The machine with unbounded counters. Every counter that decides in the current state is
still below its configured count, so its next increment does not wrap; the warning counter
of a degraded machine does wrap, and nothing reads it before it is cleared. -/
namespace EdgeSentinel.MotorStateMachine

/-- Agreement on all that a decision may read. -/
structure Agrees (m u : MotorStateMachine) : Prop where
  config : m.config = u.config
  state : m.state = u.state
  offline : m.offlineCount = u.offlineCount
  critical : m.criticalCount = u.criticalCount
  recovery : m.recoveryCount = u.recoveryCount
  warning : m.state = .healthy → m.warningCount = u.warningCount

section Step

variable {m u : MotorStateMachine} {samples : List SensorSample}

theorem Agrees.decision (h : Agrees m u) (sample : SensorSample) :
    decision m sample = decision u sample := by
  have warning : (u.state = .healthy ∧ u.config.warningSamples.toNat ≤ m.warningCount) ↔
      (u.state = .healthy ∧ u.config.warningSamples.toNat ≤ u.warningCount) :=
    and_congr_right fun healthy => by rw [h.warning (h.state.trans healthy)]
  simp only [MotorStateMachine.decision, h.config, h.state, h.offline, h.critical, h.recovery,
    warning]

theorem Agrees.settle (h : Agrees m u) (verdict : Option (MotorState × TransitionReason)) :
    Agrees (m.settle verdict).1 (u.settle verdict).1 ∧
      (m.settle verdict).2 = (u.settle verdict).2 := by
  cases verdict with
  | none => exact ⟨h, by simp only [settle_none, unchanged, h.state]⟩
  | some verdict =>
    refine ⟨⟨h.config, rfl, rfl, rfl, rfl, fun _ => rfl⟩, ?_⟩
    simp only [MotorStateMachine.settle, transitionTo, h.state]

/-- One more sample: the counters that a decision may read have not reached their
limits, so both increments agree on them. -/
theorem Agrees.counted (h : Agrees m u) (history : CountsHistory m samples)
    (active : m.Protecting) (sample : SensorSample) :
    Agrees (m.counted SizeT.increment sample) (u.counted Nat.succ sample) := by
  have step : ∀ {count other : Nat} {limit : UInt64}, count = 0 ∨ count < limit.toNat →
      count = other → SizeT.increment count = other.succ := by
    intro count other limit low same
    rw [SizeT.increment_below limit.toNat_lt low, same]
  refine ⟨h.config, h.state, ?_, ?_, ?_, ?_⟩
  · simp only [MotorStateMachine.counted, step (history.offlineBelow active) h.offline]
  · simp only [MotorStateMachine.counted, step (history.criticalBelow active) h.critical, h.config]
  · by_cases degraded : m.state = .degraded
    · simp only [MotorStateMachine.counted, step (history.recoveryBelow degraded) h.recovery,
        h.config, h.state]
    · simp only [MotorStateMachine.counted, ← h.state, degraded, false_and, if_false]
  · intro healthy
    have low : m.warningCount = 0 ∨ m.warningCount < m.config.warningSamples.toNat := by
      have below := history.warningBelow healthy
      have value := history.warning active
      have limit := m.config.warningSamples.toNat_lt
      omega
    simp only [MotorStateMachine.counted, step low (h.warning healthy), h.config]

theorem Agrees.handle (h : Agrees m u) (history : CountsHistory m samples) (event : Event) :
    Agrees (handle m event).1 (handleWith Nat.succ u event).1 ∧
      (handle m event).2 = (handleWith Nat.succ u event).2 := by
  unfold MotorStateMachine.handle
  by_cases sampled : event.kind = .sensorSample
  · by_cases active : m.Protecting
    · have other : u.Protecting := by rwa [Protecting, ← h.state]
      rw [handleWith_judged _ m event sampled active, handleWith_judged _ u event sampled other]
      have next := h.counted history active event.sample
      rw [next.decision]
      exact next.settle _
    · have other : ¬ u.Protecting := by rwa [Protecting, ← h.state]
      obtain ⟨last, seen, same⟩ := handleWith_ignored SizeT.increment m event sampled active
      obtain ⟨last', seen', same'⟩ := handleWith_ignored Nat.succ u event sampled other
      rw [same, same']
      refine ⟨⟨h.config, h.state, h.offline, h.critical, h.recovery, h.warning⟩, ?_⟩
      simp only [unchanged, h.state]
  · rw [handleWith_commanded _ m event sampled, handleWith_commanded _ u event sampled, h.state]
    exact h.settle _

end Step

theorem run_agrees (config : ProtectionConfig) (events : List Event) :
    Agrees (Mealy.final handle (initial config) events)
      (Mealy.final (handleWith Nat.succ) (initial config) events) ∧
    Mealy.outputs handle (initial config) events =
      Mealy.outputs (handleWith Nat.succ) (initial config) events := by
  have start : Agrees (initial config) (initial config) ∧
      ∃ samples, CountsHistory (initial config) samples :=
    ⟨⟨rfl, rfl, rfl, rfl, rfl, fun _ => rfl⟩, [], run_countsHistory config []⟩
  obtain ⟨⟨same, -⟩, reports⟩ := Mealy.lockstep handle
    (R := fun m u => Agrees m u ∧ ∃ samples, CountsHistory m samples)
    (by
      rintro m u event ⟨same, samples, history⟩
      obtain ⟨next, report⟩ := same.handle history event
      exact ⟨⟨next, _, countsHistory_handle history event⟩, report⟩)
    start events
  exact ⟨same, reports⟩

/-- For every configuration and every run, the machine of the source and the machine with
unbounded counters go through the same states and report the same transitions. -/
theorem wrap_never_decides (config : ProtectionConfig) (events : List Event) :
    Mealy.outputs handle (initial config) events =
      Mealy.outputs (handleWith Nat.succ) (initial config) events ∧
    ∀ n, (Mealy.final handle (initial config) (events.take n)).state =
      (Mealy.final (handleWith Nat.succ) (initial config) (events.take n)).state :=
  ⟨(run_agrees config events).2, fun n => (run_agrees config (events.take n)).1.state⟩

end EdgeSentinel.MotorStateMachine
