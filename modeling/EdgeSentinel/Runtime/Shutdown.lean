import EdgeSentinel.Fsm.Step
import EdgeSentinel.Runtime.Refinement

/-! Whether `stop` reaches the safe state. It publishes one shutdown request like
any other event and drops the answer, so what matters is whether that one call
finds a slot and room in the queue. -/
namespace EdgeSentinel

/- A call that has met no failure. -/
def PublishStep.onTrack : PublishStep → Bool
  | .checking | .allocating | .pushing _ | .recording | .returned .published => true
  | _ => false

/- What the call takes next is used up. -/
def Pipeline.blocks (p : Pipeline) : PublishStep → Bool
  | .allocating => p.pool.freeHead = kEventPoolCapacity
  | .pushing _ => p.queue.size = kEventQueueCapacity
  | _ => false

/- The call is about to fail: also at a closed gate or at a closed queue. -/
def Pipeline.fails (p : Pipeline) : PublishStep → Bool
  | .checking => !p.acceptingEvents
  | .pushing handle => p.blocks (.pushing handle) || p.queue.closed
  | step => p.blocks step

namespace EdgeRuntime

/-- The shutdown request is about to be lost: the call of `publish` made by `stop`
moves while the pool is exhausted or the queue is full. -/
def obstructed (r : EdgeRuntime) : Label → Bool
  | .advance index _ =>
    r.stop.map StopCall.call == some index && r.calls[index]?.any fun call => r.blocks call.step
  | _ => false

section Steps

variable {layout : Layout} {protection : ProtectionConfig} {notes : List Note}
  {r r' : EdgeRuntime} {q : Pipeline} {note : Note}

/-- One step of a call: it stays on track unless it is about to fail. -/
theorem Sound.advance_onTrack (h : Sound layout protection notes r) {index : Nat}
    {call : PublishCall} (here : r.calls[index]? = some call)
    (moved : Pipeline.Advances layout r.toPipeline index call q note) :
    ∃ step, q.calls[index]? = some { call with step } ∧
      (step.onTrack = true ↔ call.step.onTrack = true ∧ r.fails call.step = false) := by
  obtain ⟨backlog, inHand, carries⟩ := h.carries
  have next : ∀ step, (r.calls.set index { call with step })[index]? = some { call with step } := by
    intro step
    rw [Recorded.getElem?_move here, if_pos rfl]
  cases moved with
  | admitted stage accepting =>
    refine ⟨_, next _, ?_⟩
    simp [stage, PublishStep.onTrack, Pipeline.fails, accepting]
  | turnedAway stage refusing =>
    refine ⟨_, next _, ?_⟩
    simp [stage, PublishStep.onTrack, Pipeline.fails, refusing]
  | @allocated now pool handle stage created some =>
    refine ⟨_, next _, ?_⟩
    obtain ⟨-, _, empty, -⟩ | ⟨free, -⟩ := carries.owners.tryCreate (ε := Empty) ⟨call.event, now⟩
    · cases created.symm.trans empty
      exact absurd rfl some
    · simp [stage, PublishStep.onTrack, Pipeline.fails, Pipeline.blocks, free]
  | @exhausted now pool handle stage created none =>
    refine ⟨_, next _, ?_⟩
    obtain ⟨used, -⟩ | ⟨-, _, _, full, some, -⟩ :=
      carries.owners.tryCreate (ε := Empty) ⟨call.event, now⟩
    · simp [stage, PublishStep.onTrack, Pipeline.fails, Pipeline.blocks, used]
    · cases created.symm.trans full
      exact absurd none some
  | @pushed handle queue stage landed =>
    refine ⟨_, next _, ?_⟩
    obtain ⟨live, -, room, -⟩ := carries.queue.landed landed
    have size : r.queue.size ≠ kEventQueueCapacity := by
      rw [carries.queue.size]
      exact Nat.ne_of_lt room
    simp [stage, PublishStep.onTrack, Pipeline.fails, Pipeline.blocks, size, live]
  | @refused handle queue answer result stage missed other failed =>
    refine ⟨_, next _, ?_⟩
    obtain shut | full := (carries.queue.missed missed other).2.2
    · simp [stage, PublishStep.onTrack, Pipeline.fails, shut]
    · simp [stage, PublishStep.onTrack, Pipeline.fails, Pipeline.blocks, full]
  | released stage =>
    refine ⟨_, next _, ?_⟩
    simp [stage, PublishStep.onTrack]
  | recorded stage =>
    refine ⟨_, next _, ?_⟩
    simp [stage, PublishStep.onTrack, Pipeline.fails, Pipeline.blocks]
  | @dropped result stage =>
    refine ⟨_, next _, ?_⟩
    have honest := h.recorded.honest call (List.mem_of_getElem? here)
    rw [stage] at honest ⊢
    cases result with
    | published => contradiction
    | _ => simp [PublishStep.onTrack]

/- An admitted call in an open queue fails only when blocked. -/
theorem fails_eq_blocks (accepting : r.acceptingEvents = true) (live : r.queue.closed = false)
    (step : PublishStep) : r.fails step = r.blocks step := by
  cases step with
  | checking => simp [Pipeline.fails, Pipeline.blocks, accepting]
  | pushing handle => simp [Pipeline.fails, live]
  | _ => rfl

/- The other threads leave the call of `stop` alone. -/
theorem Starts.calls (moved : Starts r r') : r.calls <+: r'.calls ∧ r'.stop = r.stop := by
  cases moved with
  | callsStartup stage => exact ⟨List.prefix_append _ _, rfl⟩
  | callsSelfTest stage returned => exact ⟨List.prefix_append _ _, rfl⟩
  | _ => exact ⟨List.prefix_rfl, rfl⟩

theorem Stops.calls {c : StopCall} (moved : Stops r c r') (current : r.stop = some c) :
    r'.calls = r.calls ∧ r'.stop.map StopCall.call = some c.call := by
  cases moved with
  | again stage => exact ⟨rfl, by rw [current]; rfl⟩
  | _ => exact ⟨rfl, rfl⟩

theorem Senses.calls {sample : SensorSample} (moved : Senses r sample r') :
    r.calls <+: r'.calls ∧ r'.stop = r.stop := by
  cases moved with
  | publishes stage present running => exact ⟨List.prefix_append _ _, rfl⟩
  | _ => exact ⟨List.prefix_rfl, rfl⟩

theorem Monitors.calls (moved : Monitors r r') : r'.calls = r.calls ∧ r'.stop = r.stop := by
  cases moved with
  | _ => exact ⟨rfl, rfl⟩

/-- How one step treats the call of `publish` that `stop` makes: it moves it, it
leaves it alone, or it is the step that makes it. -/
inductive Treats (layout : Layout) (r r' : EdgeRuntime) (note : Note) : Label → Prop where
  | moves {index now : Nat} {call : PublishCall} (here : r.calls[index]? = some call)
      (moved : Pipeline.Advances layout r.toPipeline index call r'.toPipeline note)
      (stop : r'.stop = r.stop) : Treats layout r r' note (.advance index now)
  | leaves {label : Label} (clear : r.obstructed label = false) (calls : r.calls <+: r'.calls)
      (stop : r'.stop.map StopCall.call = r.stop.map StopCall.call) : Treats layout r r' note label
  | makes {label : Label} (clear : r.obstructed label = false) (unstopped : r.stop = none)
      (stop : r'.stop = some { call := r.calls.length })
      (calls : r'.calls = r.calls ++ [{ event := .shutdownRequested }]) :
      Treats layout r r' note label

theorem step_treats {label : Label} (moved : step layout r label = some (r', note)) :
    Treats layout r r' note label := by
  cases step_cases moved with
  | starts taken =>
    obtain ⟨calls, stop⟩ := taken.calls
    exact .leaves rfl calls (by rw [stop])
  | unstarted stage => exact .leaves rfl List.prefix_rfl rfl
  | requests started unstopped => exact .makes rfl unstopped rfl rfl
  | stops current taken =>
    obtain ⟨calls, stop⟩ := taken.calls current
    exact .leaves rfl (calls ▸ List.prefix_rfl) (by rw [stop, current]; rfl)
  | publishes event => exact .leaves rfl (List.prefix_append _ _) rfl
  | advances here taken => exact .moves here (Pipeline.advance_cases taken) rfl
  | controls taken =>
    have calls := (Pipeline.controlLoop_cases taken).frame.1
    exact .leaves rfl (calls ▸ List.prefix_rfl) rfl
  | senses taken =>
    obtain ⟨calls, stop⟩ := taken.calls
    exact .leaves rfl calls (by rw [stop])
  | monitors taken =>
    obtain ⟨calls, stop⟩ := taken.calls
    exact .leaves rfl (calls ▸ List.prefix_rfl) (by rw [stop])

/-- The shutdown request is on track exactly as long as the run has been `clear`. -/
def Tracked (clear : Prop) (r : EdgeRuntime) : Prop :=
  (r.stop = none → clear) ∧
  ∀ c, r.stop = some c → ∃ call, r.calls[c.call]? = some call ∧ (call.step.onTrack = true ↔ clear)

theorem Tracked.step {clear : Prop} (tracked : Tracked clear r)
    (h : Sound layout protection notes r) {label : Label}
    (moved : step layout r label = some (r', note)) :
    Tracked (clear ∧ r.obstructed label = false) r' := by
  obtain ⟨before, during⟩ := tracked
  cases step_treats moved with
  | leaves unobstructed calls stop =>
    simp only [unobstructed, and_true]
    constructor
    · intro unstopped
      rw [unstopped] at stop
      exact before (Option.map_eq_none_iff.mp stop.symm)
    · intro c current
      rw [current] at stop
      obtain ⟨c', current', same⟩ := Option.map_eq_some_iff.mp stop.symm
      obtain ⟨call, here, onTrack⟩ := during c' current'
      rw [same] at here
      obtain ⟨inside, value⟩ := List.getElem?_eq_some_iff.mp here
      exact ⟨call, value ▸ List.prefix_iff_getElem?.mp calls c.call inside, onTrack⟩
  | makes unobstructed unstopped stop calls =>
    simp only [unobstructed, and_true]
    constructor
    · intro still
      rw [stop] at still
      contradiction
    · intro c current
      cases stop.symm.trans current
      refine ⟨{ event := .shutdownRequested }, ?_, ?_⟩
      · rw [calls]
        exact List.getElem?_concat_length
      · exact ⟨fun _ => before unstopped, fun _ => rfl⟩
  | @moves index now call here advances stop =>
    constructor
    · intro unstopped
      rw [stop] at unstopped
      exact ⟨before unstopped, by simp [obstructed, unstopped]⟩
    · intro c current
      rw [stop] at current
      obtain ⟨call', there, onTrack⟩ := during c current
      obtain ⟨progress, next, calls⟩ := advances.calls
      by_cases own : c.call = index
      · subst own
        cases here.symm.trans there
        have publishing : c.step = .publishing := by
          by_contra later
          rw [h.staged.answered current later here] at progress
          contradiction
        obtain ⟨accepting, live⟩ := h.staged.open_gate current publishing
        obtain ⟨step, here', kept⟩ := h.advance_onTrack here advances
        refine ⟨_, here', ?_⟩
        rw [kept, onTrack, fails_eq_blocks accepting live]
        simp [obstructed, current, here]
      · refine ⟨call', ?_, ?_⟩
        · rw [calls, Recorded.getElem?_move here, if_neg (Ne.symm own)]
          exact there
        · rw [onTrack]
          simp [obstructed, current, own]

theorem run_tracked {hasSensor : Bool} {labels : List Label}
    (history : Exec.run (EdgeRuntime.step layout) (initial protection hasSensor) labels =
      some (r, notes)) :
    Tracked (Exec.Always (EdgeRuntime.step layout) (fun t label => t.obstructed label = false)
      (initial protection hasSensor) labels) r := by
  have start : Tracked True (initial protection hasSensor) := ⟨fun _ => trivial, nofun⟩
  refine Exec.past_induction
    (P := fun labels _ r => Tracked (Exec.Always (EdgeRuntime.step layout)
      (fun t label => t.obstructed label = false) (initial protection hasSensor) labels) r)
    start ?_ history
  intro labels notes t label u note past tracked moved
  rw [Exec.always_concat past]
  exact tracked.step (run_sound past) moved

/- With the queue drained, only the pushed events count. -/
theorem Sound.safeShutdown_iff (h : Sound layout protection notes r) (gone : r.control = .exited) :
    r.machine.state = .safeShutdown ↔
      ∃ event ∈ pushedEvents notes, event.kind = .shutdownRequested := by
  have up : (MotorStateMachine.initial protection).state ≠ .safeShutdown := nofun
  rw [h.handled.2, h.drained gone, MotorStateMachine.final_safeShutdown up]

/- The call of `stop` has pushed its request exactly if nothing was in its way. -/
theorem pushed_iff_clear {hasSensor : Bool} {labels : List Label}
    (history : Exec.run (EdgeRuntime.step layout) (initial protection hasSensor) labels =
      some (r, notes)) {c : StopCall} (current : r.stop = some c) (later : c.step ≠ .publishing)
    (event : Event) :
    (c.call, event) ∈ pushedCalls notes ↔ event = .shutdownRequested ∧
      Exec.Always (EdgeRuntime.step layout) (fun t label => t.obstructed label = false)
        (initial protection hasSensor) labels := by
  have sound := run_sound history
  obtain ⟨call, here, onTrack⟩ := (run_tracked history).2 c current
  obtain ⟨call', there, request, returned⟩ := sound.staged.shutdown c current
  cases here.symm.trans there
  have landed : call.step.landed = call.step.onTrack := by
    have done := returned later
    cases stage : call.step with
    | returned result => cases result <;> rfl
    | _ =>
      rw [stage] at done
      contradiction
  rw [sound.recorded.known, ← onTrack, ← landed, ← request]
  constructor
  · rintro ⟨call', there', rfl, pushed⟩
    cases here.symm.trans there'
    exact ⟨rfl, pushed⟩
  · rintro ⟨rfl, pushed⟩
    exact ⟨call, here, rfl, pushed⟩

end Steps

/-- Fail-safe shutdown, run by run: when `stop` has returned the machine is in
`safeShutdown` exactly if the shutdown request of `stop` met neither an exhausted
pool nor a full queue, or another call has pushed such a request. -/
theorem safe_shutdown_iff (layout : Layout) (protection : ProtectionConfig) (hasSensor : Bool)
    (labels : List Label) (r : EdgeRuntime) (notes : List Note)
    (history : Exec.run (EdgeRuntime.step layout) (initial protection hasSensor) labels =
      some (r, notes))
    (c : StopCall) (current : r.stop = some c) (returned : c.step = .returned) :
    r.machine.state = .safeShutdown ↔
      Exec.Always (EdgeRuntime.step layout) (fun t label => t.obstructed label = false)
        (initial protection hasSensor) labels ∨
      ∃ i event, i ≠ c.call ∧ (i, event) ∈ pushedCalls notes ∧
        event.kind = .shutdownRequested := by
  have sound := run_sound history
  have gone := sound.staged.joined c current (by rw [returned]; rfl)
  have own := pushed_iff_clear history current (by rw [returned]; decide)
  rw [sound.safeShutdown_iff gone, ← pushedCalls_events]
  constructor
  · rintro ⟨event, member, kind⟩
    obtain ⟨⟨i, event⟩, pushed, rfl⟩ := List.mem_map.mp member
    by_cases mine : i = c.call
    · subst mine
      exact .inl ((own event).mp pushed).2
    · exact .inr ⟨i, event, mine, pushed, kind⟩
  · rintro (clear | ⟨i, event, -, pushed, kind⟩)
    · exact ⟨_, List.mem_map_of_mem ((own .shutdownRequested).mpr ⟨rfl, clear⟩), rfl⟩
    · exact ⟨event, List.mem_map_of_mem pushed, kind⟩

theorem safe_shutdown_iff_orderly :
    ∃ r notes c, Exec.run (EdgeRuntime.step unitLayout) (initial {} true) orderly =
        some (r, notes) ∧ r.stop = some c ∧ c.step = .returned ∧
      r.machine.state = .safeShutdown := by
  obtain ⟨r, notes, history, stop, -⟩ := run_orderly
  have clear : Exec.Always (EdgeRuntime.step unitLayout) (fun t label => t.obstructed label = false)
      (initial {} true) orderly := by
    decide +kernel
  exact ⟨r, notes, _, history, stop, rfl,
    (safe_shutdown_iff unitLayout {} true orderly r notes history _ stop rfl).mpr (.inl clear)⟩

end EdgeRuntime

end EdgeSentinel
