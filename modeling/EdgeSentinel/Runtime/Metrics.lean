import Mathlib.Data.Nat.ModEq
import EdgeSentinel.Fsm.Step
import EdgeSentinel.Library.Counting
import EdgeSentinel.Runtime.Conservation

/-! What the metrics say at every moment. They are written outside the locks, so
each one lags behind what it counts, by exactly the calls and the iteration that
stand between the two. -/
namespace EdgeSentinel

namespace PublishStep

/- The event is in the queue and not yet in the metrics. -/
def isRecording : PublishStep → Bool
  | .recording => true
  | _ => false

/- What a call of `publish` has added to the metrics. -/
def publishes : PublishStep → Nat
  | .returned .published => 1
  | _ => 0

def drops : PublishStep → Nat
  | .returned .published | .returned .notRunning => 0
  | .returned _ => 1
  | _ => 0

/- A call that failed says neither that it was published nor that it was refused
at the gate. -/
def sincere : PublishStep → Bool
  | .releasing _ result | .dropping result => result ≠ .published && result ≠ .notRunning
  | _ => true

theorem sincere_leadsTo {before after : PublishStep} (sincere : before.sincere = true)
    (leads : Pipeline.leadsTo before after = true) : after.sincere = true := by
  unfold Pipeline.leadsTo at leads
  split at leads
  case h_6 =>
    simp only [Bool.and_eq_true, decide_eq_true_eq, List.contains_eq_mem, List.mem_cons,
      List.not_mem_nil, or_false] at leads
    obtain ⟨-, rfl | rfl | rfl⟩ := leads <;> rfl
  all_goals simp_all [PublishStep.sincere]

end PublishStep

namespace ControlStep

/- Between `wait_pop` and `record_processed`. -/
def unprocessed : ControlStep → Nat
  | .popped _ | .handled _ _ _ => 1
  | _ => 0

/- Between a `handle` that changed the state and `record_transition`. -/
def unrecorded : ControlStep → Nat
  | .handled _ _ transition | .processed _ transition => transition.changed.toNat
  | _ => 0

end ControlStep

def Label.isAdvance (index : Nat) : Label → Bool
  | .advance call _ => call = index
  | _ => false

def recordings (calls : List PublishCall) : Nat := calls.countP fun call => call.step.isRecording

/- How many of the events changed the state of a machine that took them in order. -/
def changes (start : MotorStateMachine) (events : List Event) : Nat :=
  (Mealy.outputs MotorStateMachine.handle start events).countP fun transition => transition.changed

theorem increment_modEq (n : Nat) : SizeT.increment n ≡ n + 1 [MOD 2 ^ 64] := Nat.mod_modEq _ _

theorem changes_concat (start : MotorStateMachine) (events : List Event) (event : Event) :
    changes start (events ++ [event]) = changes start events +
      ((Mealy.final MotorStateMachine.handle start events).handle event).2.changed.toNat := by
  rw [changes, Mealy.outputs_append, List.countP_append, ← changes]
  simp only [Mealy.outputs_cons, Mealy.outputs_nil, List.countP_singleton]
  cases (MotorStateMachine.handle _ event).2.changed <;> rfl

namespace Pipeline

/-- The metrics, the statistics of the queue and the machine's history agree up to
what is under way. -/
structure Booked (start : MotorStateMachine) (notes : List Note) (p : Pipeline) : Prop where
  published : p.metrics.eventsPublished + recordings p.calls ≡ p.queue.stats.pushed [MOD 2 ^ 64]
  processed : p.queue.stats.popped ≡
    p.metrics.eventsProcessed + p.control.unprocessed [MOD 2 ^ 64]
  transitions : p.metrics.transitions + p.control.unrecorded ≡
    changes start (handledEvents notes) [MOD 2 ^ 64]

section Steps

variable {layout : Layout} {start : MotorStateMachine} {notes : List Note} {p q : Pipeline}
  {note : Note} {index : Nat} {call : PublishCall}

theorem recordings_move (here : p.calls[index]? = some call) (step : PublishStep) :
    recordings (p.calls.set index { call with step }) + call.step.isRecording.toNat =
      recordings p.calls + step.isRecording.toNat :=
  List.countP_set_add (fun call : PublishCall => call.step.isRecording) here _

theorem recordings_same (here : p.calls[index]? = some call) {step : PublishStep}
    (same : step.isRecording = call.step.isRecording) :
    recordings (p.calls.set index { call with step }) = recordings p.calls := by
  have moved := recordings_move here step
  rw [same] at moved
  omega

theorem Booked.quiet (b : Booked start notes p) (silent : note.handledEvent = none) :
    Booked start (notes ++ [note]) p := by
  refine ⟨b.published, b.processed, ?_⟩
  simpa [silent] using b.transitions

theorem Booked.advance (b : Booked start notes p) (here : p.calls[index]? = some call)
    (moved : Advances layout p index call q note) : Booked start (notes ++ [note]) q := by
  obtain ⟨published, processed, transitions⟩ := b
  have same : ∀ step : PublishStep, step.isRecording = call.step.isRecording →
      p.metrics.eventsPublished + recordings (p.calls.set index { call with step }) ≡
        p.queue.stats.pushed [MOD 2 ^ 64] := by
    intro step kept
    rw [recordings_same here kept]
    exact published
  cases moved with
  | @pushed handle queue stage landed =>
    obtain ⟨popped, pushed⟩ := p.queue.waitPush_stats handle
    rw [landed] at popped pushed
    have more : recordings (p.calls.set index { call with step := .recording }) =
        recordings p.calls + 1 := by
      simpa [stage, PublishStep.isRecording] using recordings_move here .recording
    refine Booked.quiet ⟨?_, popped.symm ▸ processed, transitions⟩ rfl
    change p.metrics.eventsPublished + recordings (p.calls.set index _) ≡ queue.stats.pushed [MOD _]
    rw [more, show queue.stats.pushed = SizeT.increment p.queue.stats.pushed from pushed]
    exact (published.add_right 1).trans (increment_modEq _).symm
  | @refused handle queue answer result stage missed other failed =>
    obtain ⟨popped, pushed⟩ := p.queue.waitPush_stats handle
    rw [missed] at popped pushed
    rw [if_neg other] at pushed
    refine Booked.quiet ⟨?_, popped.symm ▸ processed, transitions⟩ rfl
    change p.metrics.eventsPublished + recordings (p.calls.set index _) ≡ queue.stats.pushed [MOD _]
    rw [show queue.stats.pushed = p.queue.stats.pushed from pushed]
    exact same _ (by rw [stage]; rfl)
  | recorded stage =>
    have fewer : recordings p.calls =
        recordings (p.calls.set index { call with step := .returned .published }) + 1 := by
      have moved := recordings_move here (.returned .published)
      simpa [stage, PublishStep.isRecording] using moved.symm
    refine Booked.quiet ⟨?_, processed, transitions⟩ rfl
    change SizeT.increment p.metrics.eventsPublished + recordings (p.calls.set index _) ≡
      p.queue.stats.pushed [MOD _]
    refine ((increment_modEq _).add_right _).trans (Nat.ModEq.trans ?_ published)
    rw [fewer, Nat.add_right_comm, Nat.add_assoc]
  | _ stage => exact Booked.quiet ⟨same _ (by rw [stage]; rfl), processed, transitions⟩ rfl

theorem Booked.controls (b : Booked start notes p) {backlog : List (Handle × Event)}
    {inHand : Option (Handle × Event)} (h : Carries layout start notes p backlog inHand)
    (moved : Controls layout p q note) : Booked start (notes ++ [note]) q := by
  obtain ⟨published, processed, transitions⟩ := b
  cases moved with
  | exits stage popped =>
    obtain ⟨rfl, -, -⟩ := h.queue.drained popped
    rw [stage] at processed transitions
    exact Booked.quiet ⟨published, processed, transitions⟩ rfl
  | @pops queue handle stage popped =>
    rw [stage] at processed transitions
    obtain ⟨pushed, popped⟩ := BoundedQueue.waitPop_stats popped rfl
    refine Booked.quiet ⟨pushed.symm ▸ published, ?_, transitions⟩ rfl
    change queue.stats.popped ≡ p.metrics.eventsProcessed + 1 [MOD _]
    rw [popped]
    exact (increment_modEq _).trans (processed.add_right 1)
  | @handles handle latency stage =>
    rw [stage] at processed transitions
    refine ⟨published, processed, ?_⟩
    rw [handledEvents_concat]
    change p.metrics.transitions + _ ≡ changes start (handledEvents notes ++ [_]) [MOD _]
    rw [changes_concat, ← h.machine]
    exact transitions.add_right _
  | @processes handle latency transition stage =>
    rw [stage] at processed transitions
    refine Booked.quiet ⟨published, ?_, transitions⟩ rfl
    exact processed.trans (increment_modEq _).symm
  | @records handle transition stage =>
    rw [stage] at processed transitions
    refine Booked.quiet ?_ rfl
    cases changed : transition.changed with
    | false =>
      simp only [ControlStep.unrecorded, changed] at transitions
      exact ⟨published, processed, transitions⟩
    | true =>
      simp only [ControlStep.unrecorded, changed] at transitions
      exact ⟨published, processed, (increment_modEq _).trans transitions⟩
  | releases stage =>
    rw [stage] at processed transitions
    exact Booked.quiet ⟨published, processed, transitions⟩ rfl

end Steps

end Pipeline

namespace EdgeRuntime

/-- What the threads outside the pipeline leave alone. -/
structure Aside (r r' : EdgeRuntime) : Prop where
  calls : ∃ more : List Event, r'.calls = r.calls ++ more.map fun event => { event := event }
  stats : r'.queue.stats = r.queue.stats
  metrics : ∃ ticks, r'.metrics = { r.metrics with monitorTicks := ticks }
  control : r'.control = r.control ∨ (r.control = .absent ∧ r'.control = .waiting)

section Steps

variable {layout : Layout} {r r' : EdgeRuntime} {note : Note}

theorem aside_same (calls : r'.calls = r.calls) (stats : r'.queue.stats = r.queue.stats)
    (metrics : r'.metrics = r.metrics) (control : r'.control = r.control) : Aside r r' :=
  ⟨⟨[], by rw [calls]; exact (List.append_nil _).symm⟩, stats, ⟨_, metrics⟩, .inl control⟩

theorem aside_call {event : Event} (calls : r'.calls = r.calls ++ [{ event := event }])
    (stats : r'.queue.stats = r.queue.stats) (metrics : r'.metrics = r.metrics)
    (control : r'.control = r.control) : Aside r r' :=
  ⟨⟨[event], calls⟩, stats, ⟨_, metrics⟩, .inl control⟩

theorem Starts.aside (moved : Starts r r') (h : Staged r) : Aside r r' := by
  cases moved with
  | spawnsControl stage =>
    have absent := h.unspawned (by simp [stage, StartStep.hasControl])
    exact ⟨⟨[], (List.append_nil _).symm⟩, rfl, ⟨_, rfl⟩, .inr ⟨absent, rfl⟩⟩
  | callsStartup stage => exact aside_call rfl rfl rfl rfl
  | callsSelfTest stage returned => exact aside_call rfl rfl rfl rfl
  | _ => exact aside_same rfl rfl rfl rfl

theorem Stops.aside {c : StopCall} (moved : Stops r c r') : Aside r r' := by
  cases moved with
  | _ => exact aside_same rfl rfl rfl rfl

theorem Senses.aside {sample : SensorSample} (moved : Senses r sample r') : Aside r r' := by
  cases moved with
  | publishes stage present running => exact aside_call rfl rfl rfl rfl
  | _ => exact aside_same rfl rfl rfl rfl

theorem Monitors.aside (moved : Monitors r r') : Aside r r' := by
  cases moved with
  | exits stage stopped => exact aside_same rfl rfl rfl rfl
  | ticks stage running => exact ⟨⟨[], (List.append_nil _).symm⟩, rfl, ⟨_, rfl⟩, .inl rfl⟩

/-- Whose step it is: a call of `publish`, the control loop, or somebody who leaves
the pipeline's books alone. -/
inductive Acts (layout : Layout) (r r' : EdgeRuntime) (note : Note) : Label → Prop where
  | advances {index now : Nat} {call : PublishCall} (here : r.calls[index]? = some call)
      (moved : r.advance layout index now call = some (r'.toPipeline, note)) :
      Acts layout r r' note (.advance index now)
  | controls {now : Nat} (moved : Pipeline.Controls layout r.toPipeline r'.toPipeline note) :
      Acts layout r r' note (.control now)
  | aside {label : Label} (other : ∀ index now, label ≠ .advance index now)
      (silent : note = .silent) (aside : Aside r r') : Acts layout r r' note label

theorem step_acts (h : Staged r) {label : Label} (moved : step layout r label = some (r', note)) :
    Acts layout r r' note label := by
  cases step_cases moved with
  | advances here taken => exact .advances here taken
  | controls taken => exact .controls (Pipeline.controlLoop_cases taken)
  | starts taken => exact .aside nofun rfl (taken.aside h)
  | unstarted stage => exact .aside nofun rfl (aside_same rfl rfl rfl rfl)
  | requests started unstopped => exact .aside nofun rfl (aside_call rfl rfl rfl rfl)
  | stops current taken => exact .aside nofun rfl taken.aside
  | publishes event => exact .aside nofun rfl (aside_call rfl rfl rfl rfl)
  | senses taken => exact .aside nofun rfl taken.aside
  | monitors taken => exact .aside nofun rfl taken.aside

theorem Aside.booked {start : MotorStateMachine} {notes : List Note} (aside : Aside r r')
    (b : r.toPipeline.Booked start notes) : r'.toPipeline.Booked start notes := by
  obtain ⟨⟨more, calls⟩, stats, ⟨ticks, metrics⟩, control⟩ := aside
  have same : recordings r'.calls = recordings r.calls := by
    rw [calls, recordings, List.countP_append, List.countP_map]
    simp [recordings, Function.comp_def, PublishStep.isRecording]
  have hand : r'.control.unprocessed = r.control.unprocessed ∧
      r'.control.unrecorded = r.control.unrecorded := by
    rcases control with same | ⟨absent, waiting⟩
    · rw [same]
      exact ⟨rfl, rfl⟩
    · rw [absent, waiting]
      exact ⟨rfl, rfl⟩
  constructor
  · rw [metrics, same, stats]
    exact b.published
  · rw [metrics, stats, hand.1]
    exact b.processed
  · rw [metrics, hand.2]
    exact b.transitions

end Steps

/- The steps of one call of `publish` that incremented a counter. -/
def increments (counter : RuntimeMetrics → Nat) (index : Nat)
    (moves : List (EdgeRuntime × Label × EdgeRuntime)) : Nat :=
  moves.countP fun (before, label, after) =>
    label.isAdvance index && counter after.metrics == SizeT.increment (counter before.metrics)

/- What the calls account for, call by call; one that was never made for nothing. -/
def charge (count : PublishStep → Nat) (calls : List PublishCall) (index : Nat) : Nat :=
  calls[index]?.elim 0 fun call => count call.step

section Charges

variable {layout : Layout} {p q : Pipeline} {note : Note} {index now : Nat} {call : PublishCall}

theorem increment_ne (n : Nat) : (n == SizeT.increment n) = false := by
  unfold SizeT.increment
  rw [beq_eq_false_iff_ne]
  omega

/-- A step of a call adds to the counters what it adds to the call's account. -/
theorem advance_charges (here : p.calls[index]? = some call) (sincere : call.step.sincere = true)
    (moved : p.advance layout index now call = some (q, note)) :
    ∃ step, q.calls = p.calls.set index { call with step } ∧ step.sincere = true ∧
      (q.metrics.eventsPublished == SizeT.increment p.metrics.eventsPublished).toNat +
        call.step.publishes = step.publishes ∧
      (q.metrics.eventsDropped == SizeT.increment p.metrics.eventsDropped).toNat +
        call.step.drops = step.drops := by
  obtain ⟨step, calls, leads⟩ := Pipeline.advance_leadsTo moved
  refine ⟨step, calls, PublishStep.sincere_leadsTo sincere leads, ?_⟩
  have known : ∀ other, p.calls.set index { call with step := other } =
      p.calls.set index { call with step } → step = other := by
    intro other same
    have entry := congrArg (fun calls => calls[index]?) same
    simp only [Recorded.getElem?_move here, if_pos] at entry
    cases entry
    rfl
  cases Pipeline.advance_cases moved with
  | recorded stage =>
    cases known _ calls
    simp [stage, Pipeline.move, RuntimeMetrics.recordPublished, PublishStep.publishes,
      PublishStep.drops, increment_ne]
  | @dropped result stage =>
    cases known _ calls
    rw [stage] at sincere
    cases result with
    | published => contradiction
    | notRunning => contradiction
    | _ =>
      simp [stage, Pipeline.move, RuntimeMetrics.recordDropped, PublishStep.publishes,
        PublishStep.drops, increment_ne]
  | _ stage =>
    cases known _ calls
    simp [stage, Pipeline.move, PublishStep.publishes, PublishStep.drops, increment_ne]

/- A call that moves takes its charges along, and the others keep theirs. -/
theorem charge_set (count : PublishStep → Nat) (here : p.calls[index]? = some call)
    (step : PublishStep) (i : Nat) :
    charge count (p.calls.set index { call with step }) i =
      if index = i then count step else charge count p.calls i := by
  rw [charge, Recorded.getElem?_move here]
  split <;> rfl

theorem charge_here (count : PublishStep → Nat) (here : p.calls[index]? = some call) :
    charge count p.calls index = count call.step := by
  rw [charge, here]
  rfl

theorem charge_append (count : PublishStep → Nat) (fresh : count .checking = 0)
    (calls : List PublishCall) (more : List Event) (i : Nat) :
    charge count (calls ++ more.map fun event => { event := event }) i = charge count calls i := by
  unfold charge
  rcases Nat.lt_or_ge i calls.length with old | new
  · rw [List.getElem?_append_left old]
  · rw [List.getElem?_append_right new, List.getElem?_eq_none new, List.getElem?_map]
    cases more[i - calls.length]? with
    | none => rfl
    | some event => exact fresh

end Charges

/-- The books of a whole run: the counters and each call's part in them. -/
structure Audited (protection : ProtectionConfig) (notes : List Note)
    (moves : List (EdgeRuntime × Label × EdgeRuntime)) (r : EdgeRuntime) : Prop where
  booked : r.toPipeline.Booked (.initial protection) notes
  sincere : ∀ call ∈ r.calls, call.step.sincere = true
  published : ∀ i, increments RuntimeMetrics.eventsPublished i moves =
    charge PublishStep.publishes r.calls i
  dropped : ∀ i, increments RuntimeMetrics.eventsDropped i moves =
    charge PublishStep.drops r.calls i

section Runs

variable {layout : Layout} {protection : ProtectionConfig} {notes : List Note}
  {moves : List (EdgeRuntime × Label × EdgeRuntime)} {r r' : EdgeRuntime} {note : Note}
  {label : Label}

theorem audited_initial {hasSensor : Bool} :
    Audited protection [] [] (initial protection hasSensor) := by
  have booked : (initial protection hasSensor).toPipeline.Booked (.initial protection) [] :=
    ⟨rfl, rfl, rfl⟩
  exact ⟨booked, fun _ absent => absurd absent List.not_mem_nil, fun _ => rfl, fun _ => rfl⟩

theorem increments_concat (counter : RuntimeMetrics → Nat) (i : Nat) :
    increments counter i (moves ++ [(r, label, r')]) = increments counter i moves +
      (label.isAdvance i && counter r'.metrics == SizeT.increment (counter r.metrics)).toNat :=
  List.countP_concat _ moves (r, label, r')

theorem isAdvance_other (other : ∀ index now, label ≠ .advance index now) (i : Nat) :
    label.isAdvance i = false := by
  cases label with
  | advance index now => exact absurd rfl (other index now)
  | _ => rfl

/-- A step that is not one of a call of `publish` is in no call's account. -/
theorem Audited.idle (h : Audited protection notes moves r) {notes' : List Note}
    (booked : r'.toPipeline.Booked (.initial protection) notes')
    (calls : ∃ more : List Event, r'.calls = r.calls ++ more.map fun event => { event := event })
    (other : ∀ index now, label ≠ .advance index now) :
    Audited protection notes' (moves ++ [(r, label, r')]) r' := by
  obtain ⟨more, calls⟩ := calls
  refine ⟨booked, ?_, ?_, ?_⟩
  · intro call member
    rw [calls] at member
    rcases List.mem_append.mp member with old | new
    · exact h.sincere call old
    · obtain ⟨event, -, rfl⟩ := List.mem_map.mp new
      rfl
  · intro i
    rw [increments_concat, isAdvance_other other, h.published i, calls, charge_append _ rfl]
    rfl
  · intro i
    rw [increments_concat, isAdvance_other other, h.dropped i, calls, charge_append _ rfl]
    rfl

theorem Audited.advance (h : Audited protection notes moves r) {index now : Nat}
    {call : PublishCall} (here : r.calls[index]? = some call)
    (moved : r.advance layout index now call = some (r'.toPipeline, note)) :
    Audited protection (notes ++ [note]) (moves ++ [(r, .advance index now, r')]) r' := by
  have sincere := h.sincere call (List.mem_of_getElem? here)
  obtain ⟨step, calls, honest, published, dropped⟩ := advance_charges here sincere moved
  refine ⟨h.booked.advance here (Pipeline.advance_cases moved), ?_, ?_, ?_⟩
  · intro other member
    rw [calls] at member
    obtain old | rfl := List.mem_or_eq_of_mem_set member
    · exact h.sincere other old
    · exact honest
  · intro i
    rw [increments_concat, h.published i, calls, charge_set _ here]
    by_cases own : index = i
    · subst own
      simp only [Label.isAdvance, decide_true, Bool.true_and, if_pos, charge_here _ here]
      omega
    · simp [Label.isAdvance, own]
  · intro i
    rw [increments_concat, h.dropped i, calls, charge_set _ here]
    by_cases own : index = i
    · subst own
      simp only [Label.isAdvance, decide_true, Bool.true_and, if_pos, charge_here _ here]
      omega
    · simp [Label.isAdvance, own]

theorem Audited.step (h : Audited protection notes moves r)
    (sound : Sound layout protection notes r) (moved : step layout r label = some (r', note)) :
    Audited protection (notes ++ [note]) (moves ++ [(r, label, r')]) r' := by
  obtain ⟨backlog, inHand, carries⟩ := sound.carries
  cases step_acts sound.staged moved with
  | advances here advanced => exact h.advance here advanced
  | controls controlled =>
    have same : r'.calls = r.calls ++ [] := controlled.frame.1.trans (List.append_nil _).symm
    exact h.idle (h.booked.controls carries controlled) ⟨[], same⟩ nofun
  | aside other silent aside =>
    subst silent
    refine h.idle (Pipeline.Booked.quiet ?_ rfl) aside.calls other
    exact aside.booked h.booked

end Runs

/-- Exact accounting: in every reachable state the counters differ from what they
count by the calls and the iteration under way, and a call that has returned has
incremented the one counter that its answer names. -/
theorem metrics_account (layout : Layout) (protection : ProtectionConfig) (hasSensor : Bool)
    (labels : List Label) (r : EdgeRuntime) (notes : List Note)
    (history : Exec.run (EdgeRuntime.step layout) (initial protection hasSensor) labels =
      some (r, notes)) :
    r.metrics.eventsPublished + recordings r.calls ≡ r.queue.stats.pushed [MOD 2 ^ 64] ∧
    r.queue.stats.popped ≡ r.metrics.eventsProcessed + r.control.unprocessed [MOD 2 ^ 64] ∧
    r.metrics.transitions + r.control.unrecorded ≡
      changes (.initial protection) (handledEvents notes) [MOD 2 ^ 64] ∧
    (∀ (m : MotorStateMachine) event,
      (m.handle event).2.changed = true ↔ m.state ≠ (m.handle event).1.state) ∧
    ∀ i call result, r.calls[i]? = some call → call.step = .returned result →
      let moves := Exec.moves (EdgeRuntime.step layout) (initial protection hasSensor) labels
      increments RuntimeMetrics.eventsPublished i moves = (if result = .published then 1 else 0) ∧
      increments RuntimeMetrics.eventsDropped i moves =
        (if result = .published ∨ result = .notRunning then 0 else 1) := by
  have audited := Exec.past_induction
    (P := fun labels notes r => Audited protection notes
      (Exec.moves (EdgeRuntime.step layout) (initial protection hasSensor) labels) r)
    audited_initial
    (by
      intro labels notes t label u note past audited moved
      rw [Exec.moves_concat past moved]
      exact audited.step (run_sound past) moved)
    history
  obtain ⟨published, processed, transitions⟩ := audited.booked
  refine ⟨published, processed, transitions, ?_, ?_⟩
  · intro m event
    rw [MotorStateMachine.handle, MotorStateMachine.handleWith_changed, bne_iff_ne]
  · intro i call result here returned moves
    rw [audited.published i, audited.dropped i, charge_here _ here, charge_here _ here, returned]
    cases result <;> exact ⟨rfl, rfl⟩

theorem metrics_account_orderly :
    ∃ r notes, Exec.run (EdgeRuntime.step unitLayout) (initial {} true) orderly =
        some (r, notes) ∧
      r.metrics.eventsPublished + recordings r.calls ≡ r.queue.stats.pushed [MOD 2 ^ 64] ∧
      increments RuntimeMetrics.eventsPublished 2
        (Exec.moves (EdgeRuntime.step unitLayout) (initial {} true) orderly) = 1 := by
  obtain ⟨r, notes, history, -, calls, -⟩ := run_orderly
  have last : r.calls[2]? = some ⟨.shutdownRequested, .returned .published⟩ := by
    rw [calls]
    rfl
  obtain ⟨published, -, -, -, own⟩ := metrics_account unitLayout {} true orderly r notes history
  exact ⟨r, notes, history, published, (own 2 _ _ last rfl).1⟩

end EdgeRuntime

end EdgeSentinel
