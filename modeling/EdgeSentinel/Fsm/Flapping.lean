import Mathlib.Algebra.Order.Ring.Nat
import EdgeSentinel.Fsm.Step

/-! Every transition that the samples cause is paid for by samples of its own. A sample adds
at most one to any counter and a transition clears all of them, so a counter never exceeds
the samples that no earlier transition has used up. -/
namespace EdgeSentinel.MotorStateMachine

/- The samples handled in `healthy` or `degraded` along a run. -/
def judgedSamples (m : MotorStateMachine) : List Event → Nat
  | [] => 0
  | event :: rest =>
    (if event.kind = .sensorSample ∧ m.Protecting then 1 else 0) +
      judgedSamples (handle m event).1 rest

/- The transitions of a run with the given reason. -/
def transitions (m : MotorStateMachine) (events : List Event) (reason : TransitionReason) : Nat :=
  (Mealy.outputs handle m events).countP (·.reason = reason)

/- The samples that a transition uses up. -/
def price (config : ProtectionConfig) : TransitionReason → Nat
  | .warningPersisted => config.warningSamples.toNat
  | .readingsRecovered => config.recoverySamples.toNat
  | .criticalReading => config.criticalSamples.toNat
  | .sensorOffline => config.offlineSamples.toNat
  | _ => 0

/- What all transitions of a run use up. -/
def spent (m : MotorStateMachine) (events : List Event) : Nat :=
  ((Mealy.outputs handle m events).map fun report => price m.config report.reason).sum

/-- No counter is above the credit. -/
structure WithinCredit (credit : Nat) (m : MotorStateMachine) : Prop where
  offline : m.offlineCount ≤ credit
  critical : m.criticalCount ≤ credit
  warning : m.warningCount ≤ credit
  recovery : m.recoveryCount ≤ credit

section Credit

variable {m : MotorStateMachine} {credit : Nat}

theorem WithinCredit.counted (h : WithinCredit credit m) (sample : SensorSample) :
    WithinCredit (credit + 1) (m.counted SizeT.increment sample) := by
  have step : ∀ (p : Prop) [Decidable p] (count : Nat), count ≤ credit →
      (if p then SizeT.increment count else 0) ≤ credit + 1 := by
    intro p _ count low
    split
    · exact (Nat.mod_le _ _).trans (by omega)
    · omega
  exact ⟨step _ _ h.offline, step _ _ h.critical, step _ _ h.warning, step _ _ h.recovery⟩

theorem withinCredit_transitionTo (m : MotorStateMachine) (next : MotorState)
    (reason : TransitionReason) (credit : Nat) :
    WithinCredit credit (m.transitionTo next reason).1 :=
  ⟨Nat.zero_le _, Nat.zero_le _, Nat.zero_le _, Nat.zero_le _⟩

/-- A decision costs no more than the counter that calls for it. -/
theorem WithinCredit.decision_price (h : WithinCredit credit m) {sample : SensorSample}
    {next : MotorState} {reason : TransitionReason}
    (called : decision m sample = some (next, reason)) : price m.config reason ≤ credit := by
  have offline := h.offline
  have critical := h.critical
  have warning := h.warning
  have recovery := h.recovery
  unfold decision at called
  split at called
  · split at called
    · cases called
      simp only [price]
      omega
    · contradiction
  · split at called
    · cases called
      simp only [price]
      omega
    · split at called
      · cases called
        simp only [price]
        omega
      · split at called
        · cases called
          simp only [price]
          omega
        · contradiction

theorem commanded_price {state : MotorState} {kind : EventKind} {next : MotorState}
    {reason : TransitionReason} (called : commanded state kind = some (next, reason))
    (config : ProtectionConfig) : price config reason = 0 := by
  cases kind <;> simp only [commanded] at called <;> (try split at called) <;> cases called <;> rfl

/-- One event: what it uses up and what it leaves come out of the credit and the sample it
brings. -/
theorem WithinCredit.handle (h : WithinCredit credit m) (event : Event) :
    ∃ left, WithinCredit left (handle m event).1 ∧
      price m.config (handle m event).2.reason + left ≤
        credit + if event.kind = .sensorSample ∧ m.Protecting then 1 else 0 := by
  unfold MotorStateMachine.handle
  by_cases sampled : event.kind = .sensorSample
  · by_cases active : m.Protecting
    · rw [handleWith_judged _ m event sampled active, if_pos ⟨sampled, active⟩]
      have counted := h.counted event.sample
      cases verdict : decision (m.counted SizeT.increment event.sample) event.sample with
      | none => exact ⟨credit + 1, counted, by simp [price]⟩
      | some choice =>
        obtain ⟨next, reason⟩ := choice
        have paid := counted.decision_price verdict
        rw [counted_config] at paid
        refine ⟨credit + 1 - price m.config reason, withinCredit_transitionTo _ _ _ _, ?_⟩
        rw [settle_some, transitionTo_reason]
        omega
    · obtain ⟨last, seen, same⟩ := handleWith_ignored SizeT.increment m event sampled active
      rw [same]
      exact ⟨credit, ⟨h.offline, h.critical, h.warning, h.recovery⟩, by simp [price]⟩
  · rw [handleWith_commanded _ m event sampled]
    cases verdict : commanded m.state event.kind with
    | none => exact ⟨credit, h, by simp [price]⟩
    | some choice =>
      obtain ⟨next, reason⟩ := choice
      refine ⟨credit, withinCredit_transitionTo _ _ _ _, ?_⟩
      rw [settle_some, transitionTo_reason, commanded_price verdict]
      omega

/-- A run spends no more than its credit and the samples it judges. -/
theorem WithinCredit.spent_le (h : WithinCredit credit m) (events : List Event) :
    m.spent events ≤ credit + m.judgedSamples events := by
  induction events generalizing m credit with
  | nil => simp [spent]
  | cons event rest ih =>
    obtain ⟨left, covered, paid⟩ := h.handle event
    have later := ih covered
    have same : (MotorStateMachine.handle m event).1.config = m.config :=
      handleWith_config SizeT.increment m event
    have total : m.spent (event :: rest) =
        price m.config (MotorStateMachine.handle m event).2.reason +
          (MotorStateMachine.handle m event).1.spent rest := by
      simp [spent, same]
    rw [total, judgedSamples]
    omega

end Credit

/-- Only the four reasons have a price. -/
theorem spent_eq (m : MotorStateMachine) (events : List Event) :
    m.spent events =
      m.transitions events .warningPersisted * m.config.warningSamples.toNat +
      m.transitions events .readingsRecovered * m.config.recoverySamples.toNat +
      m.transitions events .criticalReading * m.config.criticalSamples.toNat +
      m.transitions events .sensorOffline * m.config.offlineSamples.toNat := by
  unfold spent transitions
  induction Mealy.outputs handle m events with
  | nil => simp
  | cons report rest ih =>
    rw [List.map_cons, List.sum_cons, ih]
    cases reason : report.reason <;> simp [price, reason, Nat.add_mul] <;> omega

/-- For every configuration and every run: the samples that the transitions were charged
with are no more than the samples judged. -/
theorem flapping_bounded (config : ProtectionConfig) (events : List Event) :
    let m := initial config
    m.transitions events .warningPersisted * config.warningSamples.toNat +
      m.transitions events .readingsRecovered * config.recoverySamples.toNat +
      m.transitions events .criticalReading * config.criticalSamples.toNat +
      m.transitions events .sensorOffline * config.offlineSamples.toNat ≤
        m.judgedSamples events := by
  intro m
  have start : WithinCredit 0 m := ⟨le_refl _, le_refl _, le_refl _, le_refl _⟩
  have bound := start.spent_le events
  rw [Nat.zero_add, spent_eq] at bound
  exact bound

end EdgeSentinel.MotorStateMachine
