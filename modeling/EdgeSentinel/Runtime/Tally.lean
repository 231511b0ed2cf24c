import EdgeSentinel.Runtime.Metrics

/-! The counters of the pipeline against the events of its history: what has been pushed
and what has been handled, and how far each counter is behind. -/
namespace EdgeSentinel

namespace ControlStep

/- Between `wait_pop` and `handle`. -/
def unhandled : ControlStep → Nat
  | .popped _ => 1
  | _ => 0

/- Between `handle` and `record_processed`. -/
def uncounted : ControlStep → Nat
  | .handled _ _ _ => 1
  | _ => 0

end ControlStep

namespace Pipeline

structure Tallied (start : MotorStateMachine) (notes : List Note) (p : Pipeline) : Prop where
  pushed : SizeT.Lags p.queue.stats.pushed (pushedEvents notes).length 0
  popped : SizeT.Lags p.queue.stats.popped ((handledEvents notes).length + p.control.unhandled) 0
  published : SizeT.Lags p.metrics.eventsPublished (pushedEvents notes).length (recordings p.calls)
  processed : SizeT.Lags p.metrics.eventsProcessed (handledEvents notes).length p.control.uncounted
  transitions : SizeT.Lags p.metrics.transitions (changes start (handledEvents notes))
    p.control.unrecorded

section Steps

variable {layout : Layout} {start : MotorStateMachine} {notes : List Note} {p q : Pipeline}
  {note : Note} {index : Nat} {call : PublishCall} {backlog : List (Handle × Event)}
  {inHand : Option (Handle × Event)}

theorem Tallied.silent (t : Tallied start notes p) : Tallied start (notes ++ [.silent]) p := by
  refine ⟨?_, ?_, ?_, ?_, ?_⟩
  · simpa [Note.pushedEvent] using t.pushed
  · simpa [Note.handledEvent] using t.popped
  · simpa [Note.pushedEvent] using t.published
  · simpa [Note.handledEvent] using t.processed
  · simpa [Note.handledEvent] using t.transitions

theorem Tallied.advance (t : Tallied start notes p) (here : p.calls[index]? = some call)
    (moved : Advances layout p index call q note) : Tallied start (notes ++ [note]) q := by
  obtain ⟨pushed, popped, published, processed, transitions⟩ := t
  have same : ∀ step : PublishStep, step.isRecording = call.step.isRecording →
      SizeT.Lags p.metrics.eventsPublished (pushedEvents notes).length
        (recordings (p.calls.set index { call with step })) := by
    intro step kept
    rw [recordings_same here kept]
    exact published
  cases moved with
  | @pushed handle queue stage landed =>
    obtain ⟨less, more⟩ := p.queue.waitPush_stats handle
    rw [landed] at less more
    have later : recordings (p.calls.set index { call with step := .recording }) =
        recordings p.calls + 1 := by
      simpa [stage, PublishStep.isRecording] using recordings_move here .recording
    have grown : (pushedEvents (notes ++ [.pushed index call.event])).length =
        (pushedEvents notes).length + 1 := by
      simp [Note.pushedEvent]
    have same : handledEvents (notes ++ [.pushed index call.event]) = handledEvents notes := by
      simp [Note.handledEvent]
    refine ⟨?_, ?_, ?_, ?_, ?_⟩
    · rw [grown]
      change SizeT.Lags queue.stats.pushed _ _
      rw [show queue.stats.pushed = SizeT.increment p.queue.stats.pushed from more]
      exact pushed.owe.pay
    · rw [same]
      change SizeT.Lags queue.stats.popped _ _
      rw [show queue.stats.popped = p.queue.stats.popped from less]
      exact popped
    · rw [grown]
      change SizeT.Lags p.metrics.eventsPublished _ (recordings (p.calls.set index _))
      rw [later]
      exact published.owe
    · rw [same]
      exact processed
    · rw [same]
      exact transitions
  | @refused handle queue answer result stage missed other failed =>
    obtain ⟨less, more⟩ := p.queue.waitPush_stats handle
    rw [missed] at less more
    rw [if_neg other] at more
    refine Tallied.silent ⟨?_, ?_, same _ (by rw [stage]; rfl), processed, transitions⟩
    · change SizeT.Lags queue.stats.pushed _ _
      rw [show queue.stats.pushed = p.queue.stats.pushed from more]
      exact pushed
    · change SizeT.Lags queue.stats.popped _ _
      rw [show queue.stats.popped = p.queue.stats.popped from less]
      exact popped
  | recorded stage =>
    have fewer : recordings p.calls =
        recordings (p.calls.set index { call with step := .returned .published }) + 1 := by
      have moved := recordings_move here (.returned .published)
      simpa [stage, PublishStep.isRecording] using moved.symm
    rw [fewer] at published
    exact Tallied.silent ⟨pushed, popped, published.pay, processed, transitions⟩
  | _ stage =>
    exact Tallied.silent ⟨pushed, popped, same _ (by rw [stage]; rfl), processed, transitions⟩

theorem Tallied.controls (t : Tallied start notes p)
    (h : Carries layout start notes p backlog inHand) (moved : Controls layout p q note) :
    Tallied start (notes ++ [note]) q := by
  obtain ⟨pushed, popped, published, processed, transitions⟩ := t
  cases moved with
  | exits stage drained =>
    obtain ⟨rfl, -, -⟩ := h.queue.drained drained
    rw [stage] at popped processed transitions
    exact Tallied.silent ⟨pushed, popped, published, processed, transitions⟩
  | @pops queue handle stage taken =>
    rw [stage] at popped processed transitions
    obtain ⟨same, more⟩ := BoundedQueue.waitPop_stats taken rfl
    refine Tallied.silent ⟨same.symm ▸ pushed, ?_, published, processed, transitions⟩
    change SizeT.Lags queue.stats.popped _ _
    rw [more]
    exact popped.owe.pay
  | @handles handle latency stage =>
    rw [stage] at popped processed transitions
    have same : pushedEvents (notes ++ [.handled (p.read layout handle).event]) =
        pushedEvents notes := by
      simp [Note.pushedEvent]
    refine ⟨same.symm ▸ pushed, ?_, same.symm ▸ published, ?_, ?_⟩
    · simpa [Note.handledEvent, ControlStep.unhandled] using popped
    · simpa [Note.handledEvent, ControlStep.uncounted] using processed.owe
    · rw [handledEvents_concat]
      change SizeT.Lags p.metrics.transitions (changes start (handledEvents notes ++ [_])) _
      rw [changes_concat, ← h.machine]
      obtain ⟨n, sum, value⟩ := transitions
      exact ⟨n, congrArg (· + _) sum, value⟩
  | @processes handle latency transition stage =>
    rw [stage] at popped processed transitions
    exact Tallied.silent ⟨pushed, popped, published, processed.pay, transitions⟩
  | @records handle transition stage =>
    rw [stage] at popped processed transitions
    apply Tallied.silent
    cases changed : transition.changed with
    | false =>
      simp only [ControlStep.unrecorded, changed] at transitions
      exact ⟨pushed, popped, published, processed, transitions⟩
    | true =>
      simp only [ControlStep.unrecorded, changed] at transitions
      exact ⟨pushed, popped, published, processed, transitions.pay⟩
  | releases stage =>
    rw [stage] at popped processed transitions
    exact Tallied.silent ⟨pushed, popped, published, processed, transitions⟩

/-- What has been pushed has been handled, is in the control loop's hand or waits. -/
theorem Carries.balance (h : Carries layout start notes p backlog inHand) :
    (pushedEvents notes).length =
      (handledEvents notes).length + p.control.unhandled + p.queue.size := by
  have hand := h.control
  rw [h.order, h.size, List.length_append, List.length_map, List.length_append, Nat.add_assoc]
  congr 2
  cases stage : p.control with
  | popped handle =>
    rw [stage] at hand
    obtain ⟨entry, held, -⟩ := Option.map_eq_some_iff.mp hand.symm
    simp [held, ControlStep.hasPopped, ControlStep.unhandled]
  | _ => simp [ControlStep.hasPopped, ControlStep.unhandled]

end Steps

end Pipeline

namespace EdgeRuntime

section Runs

variable {layout : Layout} {protection : ProtectionConfig} {hasSensor : Bool}
  {labels : List Label} {notes : List Note} {r r' : EdgeRuntime} {label : Label} {note : Note}

theorem Aside.tallied {start : MotorStateMachine} (aside : Aside r r')
    (t : r.toPipeline.Tallied start notes) : r'.toPipeline.Tallied start notes := by
  obtain ⟨⟨more, calls⟩, stats, ⟨ticks, metrics⟩, control⟩ := aside
  have same : recordings r'.calls = recordings r.calls := by
    rw [calls, recordings, List.countP_append, List.countP_map]
    simp [recordings, Function.comp_def, PublishStep.isRecording]
  have hand : r'.control.unhandled = r.control.unhandled ∧
      r'.control.uncounted = r.control.uncounted ∧
      r'.control.unrecorded = r.control.unrecorded := by
    rcases control with same | ⟨absent, waiting⟩
    · rw [same]
      exact ⟨rfl, rfl, rfl⟩
    · rw [absent, waiting]
      exact ⟨rfl, rfl, rfl⟩
  refine ⟨?_, ?_, ?_, ?_, ?_⟩
  · rw [stats]
    exact t.pushed
  · rw [stats, hand.1]
    exact t.popped
  · rw [metrics, same]
    exact t.published
  · rw [metrics, hand.2.1]
    exact t.processed
  · rw [metrics, hand.2.2]
    exact t.transitions

theorem Sound.tallied (h : Sound layout protection notes r)
    (t : r.toPipeline.Tallied (.initial protection) notes)
    (moved : r.step layout label = some (r', note)) :
    r'.toPipeline.Tallied (.initial protection) (notes ++ [note]) := by
  obtain ⟨backlog, inHand, carries⟩ := h.carries
  cases step_acts h.staged moved with
  | advances here advanced => exact t.advance here (Pipeline.advance_cases advanced)
  | controls controlled => exact t.controls carries controlled
  | aside other silent aside =>
    subst silent
    exact (aside.tallied t).silent

theorem tallied_initial :
    (initial protection hasSensor).toPipeline.Tallied (.initial protection) [] :=
  ⟨.start, .start, .start, .start, .start⟩

theorem run_tallied
    (history : Exec.run (EdgeRuntime.step layout) (initial protection hasSensor) labels =
      some (r, notes)) : r.toPipeline.Tallied (.initial protection) notes := by
  refine Exec.past_induction
    (P := fun _ notes r => r.toPipeline.Tallied (.initial protection) notes) tallied_initial ?_
    history
  intro _ notes t label u note past tallied moved
  exact (run_sound past).tallied tallied moved

end Runs

end EdgeRuntime

end EdgeSentinel
