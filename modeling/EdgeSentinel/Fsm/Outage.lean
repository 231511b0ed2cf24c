import EdgeSentinel.Fsm.Protection

/-! When a run of samples trips the offline protection: some stretch of
`offlineSamples` samples in a row is offline, and the machine was still protecting at
its start. -/
namespace EdgeSentinel.MotorStateMachine

/- The reasons that a run of samples reports. -/
def reasons (m : MotorStateMachine) (samples : List SensorSample) : List TransitionReason :=
  (Mealy.outputs handle m (samples.map Event.sensorSample)).map StateTransition.reason

/- The samples begin with `count` offline ones. -/
def Outage (count : Nat) (samples : List SensorSample) : Prop :=
  List.replicate count false <+: samples.map SensorSample.online

section Outage

variable {m : MotorStateMachine} {sample : SensorSample} {samples : List SensorSample}
  {count limit : Nat}

@[simp] theorem reasons_cons : reasons m (sample :: samples) =
    (handle m (.sensorSample sample)).2.reason ::
      reasons (handle m (.sensorSample sample)).1 samples := rfl

theorem outage_cons : Outage (count + 1) (sample :: samples) ↔
    sample.online = false ∧ Outage count samples := by
  unfold Outage
  rw [List.replicate_succ, List.map_cons, List.cons_prefix_cons]
  exact and_congr_left' eq_comm

theorem not_outage_nil (some : 0 < count) : ¬ Outage count [] := by
  intro outage
  have length := List.IsPrefix.length_le outage
  simp at length
  omega

theorem Outage.shorter {less : Nat} (outage : Outage count samples) (fewer : less ≤ count) :
    Outage less samples := by
  apply List.IsPrefix.trans _ outage
  obtain ⟨more, rfl⟩ := Nat.exists_eq_add_of_le fewer
  rw [List.replicate_add]
  exact List.prefix_append _ _

/- An outage goes on with an offline sample and is over with an online one. -/
theorem outage_offline {begun : Nat} (offline : sample.online = false) (below : begun < limit) :
    Outage (limit - begun) (sample :: samples) ↔ Outage (limit - (begun + 1)) samples := by
  have next : limit - begun = limit - (begun + 1) + 1 := by omega
  rw [next, outage_cons, and_iff_right offline]

theorem not_outage_online (online : sample.online = true) (some : 0 < count) :
    ¬ Outage count (sample :: samples) := by
  obtain ⟨count, rfl⟩ := Nat.exists_eq_succ_of_ne_zero some.ne'
  rw [outage_cons, online]
  exact fun outage => absurd outage.1 (by decide)

theorem handle_idle (idle : ¬ m.Protecting) (sample : SensorSample) :
    (handle m (.sensorSample sample)).2.reason = .none ∧
      ¬ (handle m (.sensorSample sample)).1.Protecting := by
  obtain ⟨last, seen, same⟩ := handleWith_ignored SizeT.increment m (.sensorSample sample) rfl idle
  rw [handle, same]
  exact ⟨rfl, idle⟩

theorem handle_online (active : m.Protecting) (online : sample.online = true) :
    (handle m (.sensorSample sample)).2.reason ≠ .sensorOffline ∧
      (handle m (.sensorSample sample)).1.offlineCount = 0 := by
  have judged : handle m (.sensorSample sample) = (m.counted SizeT.increment sample).settle
      (decision (m.counted SizeT.increment sample) sample) :=
    handleWith_judged SizeT.increment m (.sensorSample sample) rfl active
  have zero : (m.counted SizeT.increment sample).offlineCount = 0 := by
    simp [counted, isOffline, online]
  rw [judged]
  constructor
  · intro offline
    rw [settle_decision_reason _ _ _ (by decide)] at offline
    simp [online] at offline
  · cases decision (m.counted SizeT.increment sample) sample with
    | none => exact zero
    | some verdict => rfl

/-- One more offline sample: the count goes up, and at the limit the machine trips. -/
theorem handle_offline (active : m.Protecting) (offline : sample.online = false)
    (below : m.offlineCount < m.config.offlineSamples.toNat) :
    if m.config.offlineSamples.toNat ≤ m.offlineCount + 1 then
      (handle m (.sensorSample sample)).2.reason = .sensorOffline
    else
      (handle m (.sensorSample sample)).2.reason = .none ∧
      (handle m (.sensorSample sample)).1.Protecting ∧
      (handle m (.sensorSample sample)).1.offlineCount = m.offlineCount + 1 := by
  have judged : handle m (.sensorSample sample) = (m.counted SizeT.increment sample).settle
      (decision (m.counted SizeT.increment sample) sample) :=
    handleWith_judged SizeT.increment m (.sensorSample sample) rfl active
  have more : (m.counted SizeT.increment sample).offlineCount = m.offlineCount + 1 := by
    simp only [counted, isOffline, offline]
    exact SizeT.increment_below m.config.offlineSamples.toNat_lt (.inr below)
  simp only [decision, offline, more, counted_config, Bool.not_false, if_true] at judged
  rw [judged]
  split
  · rfl
  · exact ⟨rfl, active, more⟩

theorem afterSamples_idle (idle : ¬ m.Protecting) (samples : List SensorSample) :
    ¬ (afterSamples m samples).Protecting ∧ .sensorOffline ∉ reasons m samples := by
  induction samples generalizing m with
  | nil => exact ⟨idle, List.not_mem_nil⟩
  | cons sample samples ih =>
    obtain ⟨quiet, still⟩ := handle_idle idle sample
    obtain ⟨last, silent⟩ := ih still
    refine ⟨last, ?_⟩
    rw [reasons_cons, quiet]
    simpa using silent

/- An outage somewhere in the run, with the machine protecting at its start. -/
def Outages (limit : Nat) (m : MotorStateMachine) (samples : List SensorSample) : Prop :=
  ∃ n, (afterSamples m (samples.take n)).Protecting ∧ Outage limit (samples.drop n)

theorem outages_cons : Outages limit m (sample :: samples) ↔
    (m.Protecting ∧ Outage limit (sample :: samples)) ∨
      Outages limit (handle m (.sensorSample sample)).1 samples :=
  Nat.or_exists_add_one.symm

/-- The run trips on the outage that has begun, or on a later one. -/
theorem offline_reported (configured : m.config.offlineSamples.toNat = limit)
    (below : m.Protecting → m.offlineCount < limit) (samples : List SensorSample) :
    .sensorOffline ∈ reasons m samples ↔
      (m.Protecting ∧ Outage (limit - m.offlineCount) samples) ∨ Outages limit m samples := by
  induction samples generalizing m with
  | nil =>
    constructor
    · exact fun absent => absurd absent List.not_mem_nil
    · rintro (⟨active, outage⟩ | ⟨n, active, outage⟩)
      · have := below active
        exact absurd outage (not_outage_nil (by omega))
      · rw [List.take_nil, afterSamples_nil] at active
        have := below active
        rw [List.drop_nil] at outage
        exact absurd outage (not_outage_nil (by omega))
  | cons sample samples ih =>
    rw [outages_cons, reasons_cons, List.mem_cons]
    have config : (handle m (.sensorSample sample)).1.config.offlineSamples.toNat = limit := by
      rw [handle, handleWith_config]
      exact configured
    by_cases active : m.Protecting
    · have room := below active
      cases online : sample.online with
      | false =>
        have step := handle_offline active online (configured.symm ▸ room)
        rw [configured] at step
        rw [outage_offline online room]
        split at step
        · -- the last sample of the outage
          have last : limit - (m.offlineCount + 1) = 0 := by omega
          refine iff_of_true (.inl step.symm) (.inl ⟨active, ?_⟩)
          rw [last]
          exact List.nil_prefix
        · obtain ⟨quiet, still, more⟩ := step
          rw [quiet, or_iff_right (by decide), ih config (fun _ => by omega), more]
          constructor
          · rintro (⟨-, rest⟩ | later)
            · exact .inl ⟨active, rest⟩
            · exact .inr (.inr later)
          · rintro (⟨-, rest⟩ | ⟨-, outage⟩ | later)
            · exact .inl ⟨still, rest⟩
            · have part := outage.shorter (Nat.sub_le limit m.offlineCount)
              exact .inl ⟨still, (outage_offline online room).mp part⟩
            · exact .inr later
      | true =>
        obtain ⟨other, zero⟩ := handle_online active online
        rw [or_iff_right (Ne.symm other), ih config (fun _ => by omega), zero, Nat.sub_zero]
        constructor
        · rintro (begun | later)
          · exact .inr (.inr ⟨0, begun⟩)
          · exact .inr (.inr later)
        · rintro (⟨-, outage⟩ | ⟨-, outage⟩ | later)
          · exact absurd outage (not_outage_online online (by omega))
          · exact absurd outage (not_outage_online online (by omega))
          · exact .inr later
    · obtain ⟨quiet, idle⟩ := handle_idle active sample
      have silent := (afterSamples_idle idle samples).2
      have never : ¬ Outages limit (handle m (.sensorSample sample)).1 samples := by
        rintro ⟨n, protecting, -⟩
        exact (afterSamples_idle idle _).1 protecting
      simp [quiet, silent, active, never]

/-- Before the first offline sample, only the outages of the run itself count. -/
theorem offline_reported_fresh (configured : m.config.offlineSamples.toNat = limit)
    (some : 0 < limit) (fresh : m.offlineCount = 0) (samples : List SensorSample) :
    .sensorOffline ∈ reasons m samples ↔ Outages limit m samples := by
  rw [offline_reported configured (fun _ => by omega), fresh, Nat.sub_zero]
  exact or_iff_right_of_imp fun begun => ⟨0, begun⟩

end Outage

end EdgeSentinel.MotorStateMachine
