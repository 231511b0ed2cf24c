import EdgeSentinel.Runtime.Lifecycle

/-! The runtime against the sequential machine. Whatever the threads do, the
machine is where a sequential machine would be after the events pushed first, and
once `stop` has returned it is where all of them lead. -/
namespace EdgeSentinel.EdgeRuntime

/-- Everything that holds of a runtime whatever has happened to it. -/
structure Sound (layout : Layout) (protection : ProtectionConfig) (notes : List Note)
    (r : EdgeRuntime) : Prop where
  carries : ∃ backlog inHand,
    r.toPipeline.Carries layout (.initial protection) notes backlog inHand
  recorded : Recorded notes r.calls
  staged : Staged r

section Runs

variable {layout : Layout} {protection : ProtectionConfig} {hasSensor : Bool}
  {labels : List Label} {notes : List Note} {r r' : EdgeRuntime} {note : Note}

theorem sound_initial : Sound layout protection [] (initial protection hasSensor) := by
  have carries : (initial protection hasSensor).toPipeline.Carries layout (.initial protection) []
      [] none := Pipeline.carries_start
  have recorded : Recorded [] (initial protection hasSensor).calls := recorded_start
  exact ⟨⟨[], none, carries⟩, recorded, staged_initial protection hasSensor⟩

theorem Sound.flow (h : Sound layout protection notes r) {label : Label}
    (moved : step layout r label = some (r', note)) :
    Pipeline.Flow layout r.toPipeline r'.toPipeline note := by
  obtain ⟨backlog, inHand, carries⟩ := h.carries
  exact (step_flow h.staged carries.queue moved).1

theorem Sound.step (h : Sound layout protection notes r) {label : Label}
    (moved : step layout r label = some (r', note)) :
    Sound layout protection (notes ++ [note]) r' := by
  obtain ⟨backlog, inHand, carries⟩ := h.carries
  obtain ⟨flow, staged⟩ := step_flow h.staged carries.queue moved
  exact ⟨carries.flow flow, h.recorded.flow flow, staged⟩

theorem Sound.run (h : Sound layout protection notes r) {later : List Note}
    (history : Exec.run (EdgeRuntime.step layout) r labels = some (r', later)) :
    Sound layout protection (notes ++ later) r' := by
  refine Exec.run_induction (P := fun _ later r' => Sound layout protection (notes ++ later) r')
    (by simpa using h) ?_ history
  intro _ later t label u note sound moved
  simpa using sound.step moved

theorem run_sound
    (history : Exec.run (EdgeRuntime.step layout) (initial protection hasSensor) labels =
      some (r, notes)) : Sound layout protection notes r :=
  sound_initial.run history

/-- The machine has handled the events that were pushed first, in their order. -/
theorem Sound.handled (h : Sound layout protection notes r) :
    handledEvents notes <+: pushedEvents notes ∧
      r.machine = Mealy.final MotorStateMachine.handle (.initial protection)
        (handledEvents notes) := by
  obtain ⟨backlog, inHand, carries⟩ := h.carries
  exact ⟨⟨_, carries.order.symm⟩, carries.machine⟩

/- With nothing in the queue or just taken from it, everything pushed has been handled. -/
theorem Sound.emptied (h : Sound layout protection notes r) (size : r.queue.size = 0)
    (idle : r.control.hasPopped = false) : handledEvents notes = pushedEvents notes := by
  obtain ⟨backlog, inHand, carries⟩ := h.carries
  have empty : backlog = [] := by
    rw [carries.queue.size] at size
    exact List.map_eq_nil_iff.mp (List.length_eq_zero_iff.mp size)
  have order := carries.order
  rw [idle, empty] at order
  exact (order.trans (List.append_nil _)).symm

/-- A control loop that has left the queue has left nothing in it. -/
theorem Sound.drained (h : Sound layout protection notes r) (gone : r.control = .exited) :
    handledEvents notes = pushedEvents notes :=
  h.emptied (h.staged.exited gone).2 (by rw [gone]; rfl)

end Runs

theorem Sound.still {layout : Layout} {protection : ProtectionConfig} {notes later : List Note}
    {r r' : EdgeRuntime} {more : List Label} (h : Sound layout protection notes r)
    (gone : r.control = .exited) (shut : r.queue.closed = true)
    (history : Exec.run (EdgeRuntime.step layout) r more = some (r', later)) :
    pushedEvents later = [] ∧ handledEvents later = [] := by
  have all := Exec.run_induction
    (P := fun _ later r' => Sound layout protection (notes ++ later) r' ∧
      r'.control = .exited ∧ r'.queue.closed = true ∧
      pushedEvents later = [] ∧ handledEvents later = [])
    ⟨by simpa using h, gone, shut, rfl, rfl⟩ ?_ history
  · exact all.2.2.2
  · rintro _ later t label u note ⟨sound, gone, shut, pushed, handled⟩ moved
    obtain ⟨noPush, noHandle, gone', shut'⟩ := (sound.flow moved).still gone shut
    refine ⟨by simpa using sound.step moved, gone', shut', ?_, ?_⟩
    · simp [pushed, noPush]
    · simp [handled, noHandle]

/-- The concurrent runtime refines the sequential machine and loses no event that
it has accepted. -/
theorem runtime_refines_machine (layout : Layout) (protection : ProtectionConfig)
    (hasSensor : Bool) (labels : List Label) (r : EdgeRuntime) (notes : List Note)
    (history : Exec.run (EdgeRuntime.step layout) (initial protection hasSensor) labels =
      some (r, notes)) :
    (handledEvents notes <+: pushedEvents notes ∧
      r.machine = Mealy.final MotorStateMachine.handle (.initial protection)
        (handledEvents notes)) ∧
    ((pushedCalls notes).map Prod.snd = pushedEvents notes ∧
      ((pushedCalls notes).map Prod.fst).Nodup ∧
      ∀ i call, r.calls[i]? = some call → call.step = .returned .published →
        (i, call.event) ∈ pushedCalls notes) ∧
    (∀ c, r.stop = some c → c.step = .returned →
      handledEvents notes = pushedEvents notes ∧
      r.machine = Mealy.final MotorStateMachine.handle (.initial protection)
        (pushedEvents notes) ∧
      ∀ more r' later, Exec.run (EdgeRuntime.step layout) r more = some (r', later) →
        pushedEvents later = [] ∧ handledEvents later = []) := by
  have sound := run_sound history
  refine ⟨sound.handled, ⟨pushedCalls_events notes, sound.recorded.once, ?_⟩, ?_⟩
  · intro i call here published
    exact (sound.recorded.known i call.event).mpr ⟨call, here, rfl, by rw [published]; rfl⟩
  · intro c stopped returned
    have gone := sound.staged.joined c stopped (by rw [returned]; rfl)
    have all := sound.drained gone
    refine ⟨all, all ▸ sound.handled.2, ?_⟩
    intro more r' later
    exact sound.still gone (sound.staged.exited gone).1

/- `start` to its end, with the control loop not yet scheduled. -/
def starting : List Label :=
  List.replicate 5 .start ++ List.replicate 4 (.advance 0 0) ++ [.start] ++
    List.replicate 4 (.advance 1 0) ++ List.replicate 3 .start

/- `stop` from the end of its call of `publish` to the join of the control thread. -/
def closing : List Label :=
  List.replicate 5 .stop ++ [.sensor {}, .monitor] ++ List.replicate 3 .stop

/- The control loop through so many events and out. -/
def draining (count : Nat) : List Label := List.replicate (5 * count + 1) (.control 0)

/- A lifecycle in which no thread is in another's way. -/
def orderly : List Label :=
  starting ++ (.stop :: List.replicate 4 (.advance 2 0)) ++ closing ++ draining 3 ++ [.stop, .stop]

def unitLayout : Layout := ⟨1, 1, Nat.one_pos, Nat.one_pos⟩

theorem run_orderly :
    ∃ r notes, Exec.run (EdgeRuntime.step unitLayout) (initial {} true) orderly =
        some (r, notes) ∧ r.stop = some ⟨2, .returned⟩ ∧
      r.calls = [⟨.startup, .returned .published⟩, ⟨.selfTestPassed, .returned .published⟩,
        ⟨.shutdownRequested, .returned .published⟩] ∧
      pushedEvents notes = [.startup, .selfTestPassed, .shutdownRequested] := by
  have outcome : (Exec.run (EdgeRuntime.step unitLayout) (initial {} true) orderly).any
      (fun (r, notes) => r.stop = some ⟨2, .returned⟩ ∧
        r.calls = [⟨.startup, .returned .published⟩, ⟨.selfTestPassed, .returned .published⟩,
          ⟨.shutdownRequested, .returned .published⟩] ∧
        pushedEvents notes = [.startup, .selfTestPassed, .shutdownRequested]) = true := by
    decide +kernel
  obtain ⟨⟨r, notes⟩, history, facts⟩ := (Option.any_eq_true _ _).mp outcome
  exact ⟨r, notes, history, of_decide_eq_true facts⟩

theorem runtime_refines_machine_orderly :
    ∃ r notes c, Exec.run (EdgeRuntime.step unitLayout) (initial {} true) orderly =
        some (r, notes) ∧ r.stop = some c ∧ c.step = .returned ∧
      handledEvents notes = [.startup, .selfTestPassed, .shutdownRequested] ∧
      r.machine = Mealy.final MotorStateMachine.handle (.initial {})
        [.startup, .selfTestPassed, .shutdownRequested] := by
  obtain ⟨r, notes, history, stop, -, pushed⟩ := run_orderly
  obtain ⟨-, -, complete⟩ := runtime_refines_machine unitLayout {} true orderly r notes history
  obtain ⟨handled, machine, -⟩ := complete _ stop rfl
  exact ⟨r, notes, _, history, stop, rfl, handled.trans pushed, pushed ▸ machine⟩

end EdgeSentinel.EdgeRuntime
