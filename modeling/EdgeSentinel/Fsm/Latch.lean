import EdgeSentinel.Fsm.Step

/-! Faults stay latched. From `faultLatched` the machine reaches a protecting state
only through a reset and a self test that nothing interrupts, and `safeShutdown` is
for good. -/
namespace EdgeSentinel.MotorStateMachine

/- The machine after so many events of a run. -/
def after (config : ProtectionConfig) (events : List Event) (count : Nat) : MotorStateMachine :=
  Mealy.final handle (initial config) (events.take count)

theorem after_event (config : ProtectionConfig) {events : List Event} {n : Nat} {event : Event}
    (here : events[n]? = some event) :
    after config events (n + 1) = ((after config events n).handle event).1 := by
  rw [after, List.take_add_one, here]
  exact Mealy.final_concat handle _ _ _

theorem after_end (config : ProtectionConfig) {events : List Event} {n : Nat}
    (none : events[n]? = none) : after config events (n + 1) = after config events n := by
  have short := List.getElem?_eq_none_iff.mp none
  rw [after, after, List.take_of_length_le short, List.take_of_length_le (Nat.le_succ_of_le short)]

theorem settle_state (m : MotorStateMachine) (verdict : Option (MotorState × TransitionReason)) :
    (m.settle verdict).1.state = (verdict.map Prod.fst).getD m.state := by
  cases verdict <;> rfl

/-- Outside the protecting states only commands count. -/
theorem handle_state {m : MotorStateMachine} (idle : ¬ m.Protecting) (event : Event) :
    (m.handle event).1.state = ((commanded m.state event.kind).map Prod.fst).getD m.state := by
  by_cases sampled : event.kind = .sensorSample
  · obtain ⟨last, seen, same⟩ := handleWith_ignored SizeT.increment m event sampled idle
    rw [handle, same, sampled]
    rfl
  · rw [handle, handleWith_commanded SizeT.increment m event sampled]
    exact settle_state m _

/-- A protecting state is left for no state that comes before protection. -/
theorem handle_protecting {m : MotorStateMachine} (active : m.Protecting) (event : Event) :
    (m.handle event).1.state ≠ .booting ∧ (m.handle event).1.state ≠ .selfTest := by
  have here : m.state ≠ .booting ∧ m.state ≠ .selfTest := by
    rcases active with state | state <;> rw [state] <;> decide
  by_cases sampled : event.kind = .sensorSample
  · rw [handle, handleWith_judged SizeT.increment m event sampled active, settle_state]
    cases choice : decision (m.counted SizeT.increment event.sample) event.sample with
    | none => exact here
    | some verdict => exact (decision_state choice).2
  · rw [handle, handleWith_commanded SizeT.increment m event sampled, settle_state]
    rcases active with state | state <;> rw [state] <;> cases event.kind <;> decide

/-- The ways into a state that comes before protection, the start-up apart: none into
`booting`, a reset of a latched fault into `selfTest`. -/
theorem handle_unprotected {m : MotorStateMachine} (booted : m.state ≠ .booting) (event : Event) :
    (m.handle event).1.state ≠ .booting ∧
      ((m.handle event).1.state = .selfTest →
        m.state = .selfTest ∨ m.state = .faultLatched ∧ event.kind = .resetRequested) := by
  by_cases active : m.Protecting
  · obtain ⟨notBooting, notTesting⟩ := handle_protecting active event
    exact ⟨notBooting, fun testing => absurd testing notTesting⟩
  · rw [handle_state active event]
    cases state : m.state <;> cases event.kind <;> simp_all [commanded]

/-- The self test under way after `n` events began with a reset of the latched fault
behind event `i`. -/
def Testing (config : ProtectionConfig) (events : List Event) (i k n : Nat) : Prop :=
  i < k ∧ k ≤ n ∧ (∃ event, events[k - 1]? = some event ∧ event.kind = .resetRequested) ∧
    (after config events (k - 1)).state = .faultLatched ∧
    ∀ m, k ≤ m → m ≤ n → (after config events m).state = .selfTest

/-- The latched fault behind event `i` was reset and a self test passed. -/
def Cleared (config : ProtectionConfig) (events : List Event) (i n : Nat) : Prop :=
  ∃ k l, k < l ∧ l ≤ n ∧ Testing config events i k (l - 1) ∧
    ∃ event, events[l - 1]? = some event ∧ event.kind = .selfTestPassed

/-- Where a run can be, once it has been in `faultLatched`. -/
inductive Latched (config : ProtectionConfig) (events : List Event) (i n : Nat) : Prop where
  | fault (state : (after config events n).state = .faultLatched)
  | down (state : (after config events n).state = .safeShutdown)
  | testing (k : Nat) (test : Testing config events i k n)
  | cleared (passed : Cleared config events i n)

section Runs

variable {config : ProtectionConfig} {events : List Event} {i k n : Nat}

theorem Cleared.mono (h : Cleared config events i n) : Cleared config events i (n + 1) := by
  obtain ⟨k, l, order, bound, rest⟩ := h
  exact ⟨k, l, order, Nat.le_succ_of_le bound, rest⟩

theorem Testing.extend (h : Testing config events i k n)
    (still : (after config events (n + 1)).state = .selfTest) :
    Testing config events i k (n + 1) := by
  obtain ⟨later, bound, reset, latched, testing⟩ := h
  refine ⟨later, Nat.le_succ_of_le bound, reset, latched, ?_⟩
  intro m low high
  rcases Nat.lt_or_ge n m with new | old
  · rw [show m = n + 1 by omega]
    exact still
  · exact testing m low old

theorem Testing.state (h : Testing config events i k n) :
    (after config events n).state = .selfTest :=
  h.2.2.2.2 n h.2.1 (Nat.le_refl n)

theorem idle_of_state {m : MotorStateMachine} {state : MotorState} (here : m.state = state)
    (quiet : state ≠ .healthy ∧ state ≠ .degraded) : ¬ m.Protecting := by
  rintro (healthy | degraded)
  · exact quiet.1 (here.symm.trans healthy)
  · exact quiet.2 (here.symm.trans degraded)

theorem Latched.event (bound : i ≤ n) (h : Latched config events i n) {event : Event}
    (here : events[n]? = some event) : Latched config events i (n + 1) := by
  have next := after_event config here
  cases h with
  | fault state =>
    have moved := handle_state (idle_of_state state (by decide)) event
    rw [← next, state] at moved
    cases kind : event.kind with
    | resetRequested =>
      rw [kind] at moved
      refine .testing (n + 1) ⟨by omega, Nat.le_refl _, ⟨event, here, kind⟩, state, ?_⟩
      intro m low high
      rw [show m = n + 1 by omega]
      exact moved
    | shutdownRequested =>
      rw [kind] at moved
      exact .down moved
    | _ =>
      rw [kind] at moved
      exact .fault moved
  | down state =>
    have moved := handle_state (idle_of_state state (by decide)) event
    rw [← next, state] at moved
    cases kind : event.kind <;> rw [kind] at moved <;> exact .down moved
  | testing k test =>
    have state := test.state
    have moved := handle_state (idle_of_state state (by decide)) event
    rw [← next, state] at moved
    cases kind : event.kind with
    | selfTestPassed =>
      obtain ⟨later, low, rest⟩ := test
      exact .cleared ⟨k, n + 1, by omega, Nat.le_refl _, ⟨later, low, rest⟩, event, here, kind⟩
    | shutdownRequested =>
      rw [kind] at moved
      exact .down moved
    | internalFault =>
      rw [kind] at moved
      exact .fault moved
    | _ =>
      rw [kind] at moved
      exact .testing k (test.extend moved)
  | cleared passed => exact .cleared passed.mono

theorem Latched.next (bound : i ≤ n) (h : Latched config events i n) :
    Latched config events i (n + 1) := by
  cases here : events[n]? with
  | some event => exact h.event bound here
  | none =>
    have same := after_end config here
    cases h with
    | fault state => exact .fault (by rw [same]; exact state)
    | down state => exact .down (by rw [same]; exact state)
    | testing k test => exact .testing k (test.extend (by rw [same]; exact test.state))
    | cleared passed => exact .cleared passed.mono

theorem latched_run (latched : (after config events i).state = .faultLatched) (count : Nat) :
    Latched config events i (i + count) := by
  induction count with
  | zero => exact .fault latched
  | succ count ih => exact ih.next (Nat.le_add_right i count)

/-- Behind a start-up the machine never boots again, and every self test began with the
reset of a latched fault. -/
theorem started_run (opened : events.take 2 = [.startup, .selfTestPassed]) (count : Nat) :
    (after config events (2 + count)).state ≠ .booting ∧
      ((after config events (2 + count)).state = .selfTest →
        ∃ k, Testing config events 2 k (2 + count)) := by
  induction count with
  | zero =>
    have healthy : (after config events 2).state = .healthy := by
      rw [after, opened]
      rfl
    rw [Nat.add_zero, healthy]
    exact ⟨by decide, nofun⟩
  | succ count ih =>
    obtain ⟨booted, began⟩ := ih
    rw [← Nat.add_assoc]
    cases here : events[2 + count]? with
    | none =>
      have same := after_end config here
      refine ⟨by rwa [same], fun testing => ?_⟩
      obtain ⟨k, test⟩ := began (by rwa [same] at testing)
      exact ⟨k, test.extend testing⟩
    | some event =>
      have next := handle_unprotected booted event
      rw [← after_event config here] at next
      refine ⟨next.1, fun testing => ?_⟩
      rcases next.2 testing with still | ⟨latched, reset⟩
      · obtain ⟨k, test⟩ := began still
        exact ⟨k, test.extend testing⟩
      · refine ⟨2 + count + 1, by omega, Nat.le_refl _, ⟨event, here, reset⟩, latched, ?_⟩
        intro m low high
        rwa [show m = 2 + count + 1 by omega]

end Runs

theorem final_faultLatched {m : MotorStateMachine} (latched : m.state = .faultLatched)
    {events : List Event}
    (harmless : ∀ event ∈ events, event.kind = .sensorSample ∨ event.kind = .startup ∨
      event.kind = .selfTestPassed) : (Mealy.final handle m events).state = .faultLatched := by
  induction events generalizing m with
  | nil => exact latched
  | cons event rest ih =>
    have moved := handle_state (idle_of_state latched (by decide)) event
    rw [latched] at moved
    apply ih
    · rcases harmless event List.mem_cons_self with kind | kind | kind <;> rw [kind] at moved <;>
        exact moved
    · exact fun later member => harmless later (List.mem_cons_of_mem _ member)

theorem final_down {m : MotorStateMachine} (down : m.state = .safeShutdown) (events : List Event) :
    Mealy.final handle m events = m := by
  induction events with
  | nil => rfl
  | cons event rest ih =>
    have same : (m.handle event).1 = m := congrArg Prod.fst (if_pos down)
    rw [Mealy.final_cons, same, ih]

/-- Faults stay latched over whole runs: behind a latched fault a protecting state
takes a reset in `faultLatched` and a self test without interruption, samples, startups
and passed self tests alone never leave `faultLatched`, and `safeShutdown` freezes the
whole snapshot. Events are counted from one. -/
theorem fault_stays_latched (config : ProtectionConfig) (events : List Event) :
    (∀ i j, i < j → (after config events i).state = .faultLatched →
      ((after config events j).state = .healthy ∨ (after config events j).state = .degraded) →
      ∃ k l, i < k ∧ k < l ∧ l ≤ j ∧
        (∃ event, events[k - 1]? = some event ∧ event.kind = .resetRequested) ∧
        (after config events (k - 1)).state = .faultLatched ∧
        (∃ event, events[l - 1]? = some event ∧ event.kind = .selfTestPassed) ∧
        (after config events (l - 1)).state = .selfTest ∧
        ∀ n, k ≤ n → n < l → (after config events n).state = .selfTest) ∧
    (∀ i more, (after config events i).state = .faultLatched →
      (∀ event ∈ more, event.kind = .sensorSample ∨ event.kind = .startup ∨
        event.kind = .selfTestPassed) →
      (Mealy.final handle (after config events i) more).state = .faultLatched) ∧
    (∀ i more, (after config events i).state = .safeShutdown →
      Mealy.final handle (after config events i) more = after config events i) := by
  refine ⟨?_, fun i more latched harmless => final_faultLatched latched harmless,
    fun i more down => final_down down more⟩
  intro i j order latched protecting
  have arrived : Latched config events i j := by
    have run := latched_run latched (j - i)
    rwa [Nat.add_sub_cancel' (Nat.le_of_lt order)] at run
  cases arrived with
  | fault state => simp [state] at protecting
  | down state => simp [state] at protecting
  | testing k test => simp [test.state] at protecting
  | cleared passed =>
    obtain ⟨k, l, before, bound, test, done⟩ := passed
    obtain ⟨later, -, reset, fault, testing⟩ := id test
    refine ⟨k, l, later, before, bound, reset, fault, done, test.state, ?_⟩
    intro n low high
    exact testing n low (by omega)

end EdgeSentinel.MotorStateMachine
