import EdgeSentinel.Fsm.Machine

/-! What one event can do to the machine, said once. A sample in a protecting
state first moves the four counters and then meets one decision; everything
else either runs `transitionTo` or leaves state and counters alone. -/
namespace EdgeSentinel.MotorStateMachine

/-- The states in which samples are judged. -/
def Protecting (m : MotorStateMachine) : Prop := m.state = .healthy ∨ m.state = .degraded

instance (m : MotorStateMachine) : Decidable m.Protecting := inferInstanceAs (Decidable (_ ∨ _))

def isOffline (sample : SensorSample) : Bool := !sample.online

def onlineCritical (config : ProtectionConfig) (sample : SensorSample) : Bool :=
  sample.online && config.isCritical sample

def onlineWarning (config : ProtectionConfig) (sample : SensorSample) : Bool :=
  sample.online && config.isWarning sample

def onlineRecovered (config : ProtectionConfig) (sample : SensorSample) : Bool :=
  sample.online && !config.isWarning sample && config.isRecovered sample

/-- The counters with one more sample, before any decision. -/
def counted (bump : Nat → Nat) (m : MotorStateMachine) (sample : SensorSample) :
    MotorStateMachine :=
  { m with
    lastSample := sample
    hasSample := true
    offlineCount := if isOffline sample then bump m.offlineCount else 0
    criticalCount := if onlineCritical m.config sample then bump m.criticalCount else 0
    warningCount := if onlineWarning m.config sample then bump m.warningCount else 0
    recoveryCount :=
      if m.state = .degraded ∧ onlineRecovered m.config sample then bump m.recoveryCount else 0 }

/-- The transition that the counters call for, offline and critical first. -/
def decision (m : MotorStateMachine) (sample : SensorSample) :
    Option (MotorState × TransitionReason) :=
  if !sample.online then
    if m.config.offlineSamples.toNat ≤ m.offlineCount then some (.faultLatched, .sensorOffline)
    else none
  else if m.config.criticalSamples.toNat ≤ m.criticalCount then
    some (.faultLatched, .criticalReading)
  else if m.state = .healthy ∧ m.config.warningSamples.toNat ≤ m.warningCount then
    some (.degraded, .warningPersisted)
  else if m.state = .degraded ∧ m.config.recoverySamples.toNat ≤ m.recoveryCount then
    some (.healthy, .readingsRecovered)
  else none

def settle (m : MotorStateMachine) : Option (MotorState × TransitionReason) →
    MotorStateMachine × StateTransition
  | some (next, reason) => m.transitionTo next reason
  | none => (m, m.unchanged)

@[simp] theorem settle_some (m : MotorStateMachine) (next : MotorState)
    (reason : TransitionReason) : m.settle (some (next, reason)) = m.transitionTo next reason := rfl

@[simp] theorem settle_none (m : MotorStateMachine) : m.settle none = (m, m.unchanged) := rfl

theorem settle_ite (m : MotorStateMachine) (p : Prop) [Decidable p]
    (a b : Option (MotorState × TransitionReason)) :
    m.settle (if p then a else b) = if p then m.settle a else m.settle b := by
  split <;> rfl

section Counted

variable (bump : Nat → Nat) (m : MotorStateMachine) (sample : SensorSample)

@[simp] theorem counted_config : (m.counted bump sample).config = m.config := rfl

@[simp] theorem counted_state : (m.counted bump sample).state = m.state := rfl

theorem handleOffline_settles (offline : sample.online = false) :
    handleOffline bump { m with lastSample := sample, hasSample := true } =
      (m.counted bump sample).settle (decision (m.counted bump sample) sample) := by
  simp only [handleOffline, decision, counted, isOffline, onlineCritical, onlineWarning,
    onlineRecovered, offline, Bool.not_false, Bool.false_and, if_true, Bool.false_eq_true,
    if_false, and_false]
  split <;> rfl

theorem handleOnline_settles (online : sample.online = true) :
    handleOnline bump { m with lastSample := sample, hasSample := true } sample =
      (m.counted bump sample).settle (decision (m.counted bump sample) sample) := by
  simp only [handleOnline, decision, counted, isOffline, onlineCritical, onlineWarning,
    onlineRecovered, online, Bool.not_true, Bool.true_and, Bool.false_eq_true, if_false,
    ge_iff_le, settle_ite, settle_some, settle_none]
  -- The critical branch returns before the warning counters move, but
  -- `transitionTo` clears them in any case.
  cases warning : m.config.isWarning sample with
  | true => simp only [if_true, Bool.not_true, Bool.false_and, Bool.false_eq_true, and_false,
      if_false]; rfl
  | false => simp only [Bool.false_eq_true, if_false, Bool.not_false, Bool.true_and]; rfl

end Counted

theorem handleSample_protecting (bump : Nat → Nat) (m : MotorStateMachine)
    (sample : SensorSample) (active : m.Protecting) :
    handleSample bump m sample =
      (m.counted bump sample).settle (decision (m.counted bump sample) sample) := by
  have judged : ¬ (m.state ≠ .healthy ∧ m.state ≠ .degraded) := by
    rintro ⟨notHealthy, notDegraded⟩
    exact active.elim notHealthy notDegraded
  simp only [handleSample, if_neg judged]
  cases online : sample.online with
  | false => exact handleOffline_settles bump m sample online
  | true => exact handleOnline_settles bump m sample online

theorem handleSample_idle (bump : Nat → Nat) (m : MotorStateMachine) (sample : SensorSample)
    (idle : ¬ m.Protecting) :
    handleSample bump m sample =
      ({ m with lastSample := sample, hasSample := true }, m.unchanged) := by
  have ignored : m.state ≠ .healthy ∧ m.state ≠ .degraded :=
    ⟨fun h => idle (.inl h), fun h => idle (.inr h)⟩
  simp only [handleSample, if_pos ignored]
  rfl

/-- The transition that an event other than a sample calls for. -/
def commanded (state : MotorState) : EventKind → Option (MotorState × TransitionReason)
  | .shutdownRequested =>
    if state = .safeShutdown then none else some (.safeShutdown, .shutdownRequested)
  | .internalFault =>
    if state = .safeShutdown then none else some (.faultLatched, .internalResourceFailure)
  | .startup => if state = .booting then some (.selfTest, .startupRequested) else none
  | .selfTestPassed => if state = .selfTest then some (.healthy, .selfTestSucceeded) else none
  | .resetRequested => if state = .faultLatched then some (.selfTest, .manualReset) else none
  | .sensorSample => none

theorem handleWith_commanded (bump : Nat → Nat) (m : MotorStateMachine) (event : Event)
    (other : event.kind ≠ .sensorSample) :
    handleWith bump m event = m.settle (commanded m.state event.kind) := by
  unfold handleWith
  by_cases down : m.state = .safeShutdown
  · rw [if_pos down, down]
    cases event.kind <;> rfl
  · rw [if_neg down]
    cases kind : event.kind <;> simp_all [commanded, settle_ite]

theorem handleWith_judged (bump : Nat → Nat) (m : MotorStateMachine) (event : Event)
    (sampled : event.kind = .sensorSample) (active : m.Protecting) :
    handleWith bump m event =
      (m.counted bump event.sample).settle
        (decision (m.counted bump event.sample) event.sample) := by
  have up : m.state ≠ .safeShutdown := by
    rcases active with h | h <;> rw [h] <;> decide
  rw [← handleSample_protecting bump m event.sample active]
  simp [handleWith, up, sampled]

/-- Outside the protecting states a sample moves neither state nor counters. -/
theorem handleWith_ignored (bump : Nat → Nat) (m : MotorStateMachine) (event : Event)
    (sampled : event.kind = .sensorSample) (idle : ¬ m.Protecting) :
    ∃ last seen, handleWith bump m event =
      ({ m with lastSample := last, hasSample := seen }, m.unchanged) := by
  by_cases down : m.state = .safeShutdown
  · exact ⟨m.lastSample, m.hasSample, if_pos down⟩
  · refine ⟨event.sample, true, ?_⟩
    rw [← handleSample_idle bump m event.sample idle]
    simp [handleWith, down, sampled]

theorem commanded_reason {state : MotorState} {kind : EventKind} {next : MotorState}
    {reason : TransitionReason} (h : commanded state kind = some (next, reason)) :
    reason ≠ .none := by
  cases kind <;> simp only [commanded] at h <;> (try split at h) <;> simp_all <;>
    (rw [← h.2]; decide)

theorem decision_reason {m : MotorStateMachine} {sample : SensorSample} {next : MotorState}
    {reason : TransitionReason} (h : decision m sample = some (next, reason)) :
    reason ≠ .none := by
  unfold decision at h
  split at h <;> (repeat' split at h) <;> simp_all <;> (rw [← h.2]; decide)

@[simp] theorem transitionTo_reason (m : MotorStateMachine) (next : MotorState)
    (reason : TransitionReason) : (m.transitionTo next reason).2.reason = reason := rfl

@[simp] theorem unchanged_reason (m : MotorStateMachine) : m.unchanged.reason = .none := rfl

theorem settle_changed (m : MotorStateMachine) (verdict : Option (MotorState × TransitionReason)) :
    (m.settle verdict).2.changed = (m.state != (m.settle verdict).1.state) := by
  cases verdict with
  | none => exact (bne_self_eq_false m.state).symm
  | some verdict => rfl

/-- A transition is reported as a change exactly if the state has changed. -/
theorem handleWith_changed (bump : Nat → Nat) (m : MotorStateMachine) (event : Event) :
    (handleWith bump m event).2.changed = (m.state != (handleWith bump m event).1.state) := by
  by_cases sampled : event.kind = .sensorSample
  · by_cases active : m.Protecting
    · rw [handleWith_judged bump m event sampled active]
      exact settle_changed _ _
    · obtain ⟨last, seen, same⟩ := handleWith_ignored bump m event sampled active
      rw [same]
      exact (bne_self_eq_false m.state).symm
  · rw [handleWith_commanded bump m event sampled]
    exact settle_changed m _

/-- Every event either runs `transitionTo`, or counts a sample in a protecting
state, or leaves state and counters alone. -/
theorem handleWith_cases (bump : Nat → Nat) (m : MotorStateMachine) (event : Event) :
    (∃ (n : MotorStateMachine) (next : MotorState) (reason : TransitionReason),
      reason ≠ .none ∧ n.config = m.config ∧
      handleWith bump m event = n.transitionTo next reason) ∨
    (event.kind = .sensorSample ∧ m.Protecting ∧
      decision (m.counted bump event.sample) event.sample = none ∧
      handleWith bump m event = (m.counted bump event.sample, m.unchanged)) ∨
    (¬ (event.kind = .sensorSample ∧ m.Protecting) ∧ ∃ last seen,
      handleWith bump m event =
        ({ m with lastSample := last, hasSample := seen }, m.unchanged)) := by
  by_cases sampled : event.kind = .sensorSample
  · by_cases active : m.Protecting
    · have judged := handleWith_judged bump m event sampled active
      cases choice : decision (m.counted bump event.sample) event.sample with
      | none =>
        rw [choice, settle_none] at judged
        exact .inr (.inl ⟨sampled, active, rfl, judged⟩)
      | some verdict =>
        rw [choice] at judged
        exact .inl ⟨m.counted bump event.sample, verdict.1, verdict.2, decision_reason choice, rfl,
          judged⟩
    · exact .inr (.inr ⟨fun h => active h.2, handleWith_ignored bump m event sampled active⟩)
  · have order := handleWith_commanded bump m event sampled
    cases choice : commanded m.state event.kind with
    | none =>
      rw [choice, settle_none] at order
      exact .inr (.inr ⟨fun h => sampled h.1, m.lastSample, m.hasSample, order⟩)
    | some verdict =>
      rw [choice] at order
      exact .inl ⟨m, verdict.1, verdict.2, commanded_reason choice, rfl, order⟩

theorem handleWith_config (bump : Nat → Nat) (m : MotorStateMachine) (event : Event) :
    (handleWith bump m event).1.config = m.config := by
  obtain ⟨n, next, reason, -, same, eq⟩ | ⟨-, -, -, eq⟩ | ⟨-, last, seen, eq⟩ :=
    handleWith_cases bump m event <;> rw [eq]
  · exact same
  · rfl

theorem decision_state {m : MotorStateMachine} {sample : SensorSample} {next : MotorState}
    {reason : TransitionReason} (h : decision m sample = some (next, reason)) :
    next ≠ .safeShutdown ∧ next ≠ .booting ∧ next ≠ .selfTest := by
  unfold decision at h
  split at h <;> (repeat' split at h) <;> simp_all <;> (rw [← h.1]; decide)

/-- Only a shutdown request leads to `safeShutdown`, and nothing leads out of it. -/
theorem handleWith_safeShutdown (bump : Nat → Nat) (m : MotorStateMachine) (event : Event) :
    (handleWith bump m event).1.state = .safeShutdown ↔
      m.state = .safeShutdown ∨ event.kind = .shutdownRequested := by
  by_cases sampled : event.kind = .sensorSample
  · rw [sampled]
    by_cases active : m.Protecting
    · rw [handleWith_judged bump m event sampled active]
      have up : m.state ≠ .safeShutdown := by
        rcases active with h | h <;> rw [h] <;> decide
      cases choice : decision (m.counted bump event.sample) event.sample with
      | none => simp [up]
      | some verdict =>
        obtain ⟨next, reason⟩ := verdict
        simp [up, transitionTo, resetCounters, (decision_state choice).1]
    · obtain ⟨last, seen, same⟩ := handleWith_ignored bump m event sampled active
      simp [same]
  · rw [handleWith_commanded bump m event sampled]
    cases kind : event.kind <;> cases state : m.state <;>
      simp_all [commanded, transitionTo, resetCounters]

theorem final_safeShutdown {m : MotorStateMachine} (up : m.state ≠ .safeShutdown)
    (events : List Event) :
    (Mealy.final handle m events).state = .safeShutdown ↔
      ∃ event ∈ events, event.kind = .shutdownRequested := by
  induction events using List.reverseRecOn with
  | nil => simp [up]
  | append_singleton rest event ih =>
    rw [Mealy.final_concat, handle, handleWith_safeShutdown, ← handle, ih]
    simp [or_and_right, exists_or]

end EdgeSentinel.MotorStateMachine
