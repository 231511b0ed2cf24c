import EdgeSentinel.Runtime.Accounting
import EdgeSentinel.Runtime.Model

/-! The lifecycle around the pipeline: how far `start` and `stop` have come decides
whether events are accepted, whether the queue is closed and whether the control
loop may still hold anything. -/
namespace EdgeSentinel

/- The control thread exists. -/
def StartStep.hasControl : StartStep → Bool
  | .opening | .raising | .spawningControl => false
  | _ => true

def StartStep.isOpen : StartStep → Bool
  | .opening => false
  | _ => true

namespace StopStep

def isOpen : StopStep → Bool
  | .publishing | .refusing => true
  | _ => false

def hasClosed : StopStep → Bool
  | .joiningControl | .lowering | .returned => true
  | _ => false

def hasJoined : StopStep → Bool
  | .lowering | .returned => true
  | _ => false

end StopStep

def PublishStep.isReturned : PublishStep → Bool
  | .returned _ => true
  | _ => false

namespace Pipeline

section Frames

variable {layout : Layout} {p q : Pipeline} {note : Note}

/-- A call of `publish` leaves the control loop, the gate and the closed flag alone. -/
theorem Advances.frame {index : Nat} {call : PublishCall}
    (moved : Advances layout p index call q note) :
    q.control = p.control ∧ q.acceptingEvents = p.acceptingEvents ∧
    q.queue.closed = p.queue.closed ∧ (p.queue.closed = true → q.queue = p.queue) := by
  cases moved with
  | @pushed handle queue stage landed =>
    obtain ⟨closed, same⟩ := p.queue.waitPush_frame handle
    rw [landed] at closed same
    exact ⟨rfl, rfl, closed, same⟩
  | @refused handle queue answer result stage missed other failed =>
    obtain ⟨closed, same⟩ := p.queue.waitPush_frame handle
    rw [missed] at closed same
    exact ⟨rfl, rfl, closed, same⟩
  | _ => exact ⟨rfl, rfl, rfl, fun _ => rfl⟩

/-- A call of `publish` keeps its event and moves only itself. -/
theorem Advances.calls {index : Nat} {call : PublishCall}
    (moved : Advances layout p index call q note) :
    call.step.isReturned = false ∧
      ∃ step, q.calls = p.calls.set index { call with step } := by
  cases moved with
  | _ stage => exact ⟨by rw [stage]; rfl, _, rfl⟩

theorem Controls.frame (moved : Controls layout p q note) :
    q.calls = p.calls ∧ q.acceptingEvents = p.acceptingEvents ∧
    q.queue.closed = p.queue.closed ∧ p.control ≠ .absent ∧ p.control ≠ .exited := by
  cases moved with
  | exits stage popped =>
    exact ⟨rfl, rfl, BoundedQueue.waitPop_closed popped, by simp [stage], by simp [stage]⟩
  | pops stage popped =>
    exact ⟨rfl, rfl, BoundedQueue.waitPop_closed popped, by simp [stage], by simp [stage]⟩
  | _ stage => exact ⟨rfl, rfl, rfl, by simp [stage], by simp [stage]⟩

/-- With the queue closed and the control loop gone, events move no more. -/
theorem Flow.still (moved : Flow layout p q note) (gone : p.control = .exited)
    (shut : p.queue.closed = true) :
    note.pushedEvent = none ∧ note.handledEvent = none ∧ q.control = .exited ∧
      q.queue.closed = true := by
  cases moved with
  | spawn absent =>
    rw [gone] at absent
    contradiction
  | close => exact ⟨rfl, rfl, gone, rfl⟩
  | advance here moved =>
    have advances := advance_cases moved
    obtain ⟨control, -, closed, -⟩ := advances.frame
    refine ⟨?_, ?_, control.trans gone, closed.trans shut⟩
    · cases advances with
      | pushed stage landed =>
        rw [BoundedQueue.waitPush_closed _ shut] at landed
        cases landed
      | _ => rfl
    · cases advances <;> rfl
  | control moved =>
    rw [controlLoop, gone] at moved
    contradiction
  | _ => exact ⟨rfl, rfl, gone, shut⟩

end Frames

end Pipeline

namespace EdgeRuntime

structure Staged (r : EdgeRuntime) : Prop where
  unspawned : (∀ s, r.start = some s → s.hasControl = false) → r.control = .absent
  gate : ∀ s, r.start = some s → s.isOpen = true →
    (∀ c, r.stop = some c → c.step.isOpen = true) → r.acceptingEvents = true
  ordered : r.stop ≠ none → r.start = some .returned
  closed : r.queue.closed = true ↔ ∃ c, r.stop = some c ∧ c.step.hasClosed = true
  joined : ∀ c, r.stop = some c → c.step.hasJoined = true → r.control = .exited
  exited : r.control = .exited → r.queue.closed = true ∧ r.queue.size = 0
  shutdown : ∀ c, r.stop = some c → ∃ call, r.calls[c.call]? = some call ∧
    call.event = .shutdownRequested ∧ (c.step ≠ .publishing → call.step.isReturned = true)

theorem staged_initial (protection : ProtectionConfig) (hasSensor : Bool) :
    Staged (initial protection hasSensor) where
  unspawned _ := rfl
  gate := nofun
  ordered absent := absurd rfl absent
  closed := ⟨nofun, nofun⟩
  joined := nofun
  exited := nofun
  shutdown := nofun

section Steps

variable {layout : Layout} {r r' : EdgeRuntime} {q : Pipeline} {note : Note}

/-- Nothing has been stopped as long as `start` has not returned. -/
theorem Staged.unstopped (h : Staged r) (progress : r.start ≠ some .returned) : r.stop = none := by
  by_contra stopped
  exact progress (h.ordered stopped)

theorem Staged.open_queue (h : Staged r) (unstopped : r.stop = none) : r.queue.closed = false := by
  rw [← Bool.not_eq_true, h.closed, unstopped]
  rintro ⟨c, absent, -⟩
  contradiction

theorem Staged.alive (h : Staged r) (unstopped : r.stop = none) : r.control ≠ .exited := by
  intro gone
  have shut := (h.exited gone).1
  rw [h.open_queue unstopped] at shut
  contradiction

/- Behind its first step `stop` has the answer to its request. -/
theorem Staged.answered (h : Staged r) {c : StopCall} (current : r.stop = some c)
    (later : c.step ≠ .publishing) {call : PublishCall} (here : r.calls[c.call]? = some call) :
    call.step.isReturned = true := by
  obtain ⟨call', there, -, done⟩ := h.shutdown c current
  cases here.symm.trans there
  exact done later

/- Until then events are accepted. -/
theorem Staged.open_gate (h : Staged r) {c : StopCall} (current : r.stop = some c)
    (publishing : c.step = .publishing) :
    r.acceptingEvents = true ∧ r.queue.closed = false := by
  constructor
  · refine h.gate _ (h.ordered (by simp [current])) rfl ?_
    simp [current, publishing, StopStep.isOpen]
  · rw [← Bool.not_eq_true, h.closed]
    simp [current, publishing, StopStep.hasClosed]

/-- One more step of `start`: only the control thread and the gate are at stake. -/
theorem Staged.rise (h : Staged r) (progress : r.start ≠ some .returned) {next : StartStep}
    (start : r'.start = some next) (stop : r'.stop = r.stop) (queue : r'.queue = r.queue)
    (unspawned : next.hasControl = false → r'.control = .absent)
    (gate : next.isOpen = true → r'.acceptingEvents = true) (alive : r'.control ≠ .exited) :
    Staged r' := by
  have unstopped := h.unstopped progress
  have live := h.open_queue unstopped
  rw [← queue] at live
  rw [← stop] at unstopped
  refine ⟨?_, ?_, ?_, ?_, ?_, ?_, ?_⟩
  · intro absent
    exact unspawned (absent next start)
  · intro s started isOpen _
    cases start.symm.trans started
    exact gate isOpen
  · exact fun stopped => absurd unstopped stopped
  · simp [live, unstopped]
  · simp [unstopped]
  · exact fun gone => absurd gone alive
  · simp [unstopped]

theorem Staged.starts (h : Staged r) (moved : Starts r r') : Staged r' := by
  by_cases done : r.start = some .returned
  · cases moved with
    | again _ => exact h
    | _ stage =>
      rw [done] at stage
      cases stage
  have unstopped := h.unstopped done
  have alive := h.alive unstopped
  have gate : ∀ s, r.start = some s → s.isOpen = true → r.acceptingEvents = true :=
    fun s started isOpen => h.gate s started isOpen (by simp [unstopped])
  cases moved with
  | enters stage =>
    exact h.rise done rfl rfl rfl (fun _ => h.unspawned (by simp [stage])) nofun alive
  | opens stage =>
    exact h.rise done rfl rfl rfl (fun _ => h.unspawned (by simp [stage, StartStep.hasControl]))
      (fun _ => rfl) alive
  | raises stage =>
    exact h.rise done rfl rfl rfl (fun _ => h.unspawned (by simp [stage, StartStep.hasControl]))
      (fun _ => gate _ stage rfl) alive
  | spawnsControl stage => exact h.rise done rfl rfl rfl nofun (fun _ => gate _ stage rfl) nofun
  | again stage => exact absurd stage done
  | _ stage => exact h.rise done rfl rfl rfl nofun (fun _ => gate _ stage rfl) alive

/-- One more step of `stop` behind its publish. -/
theorem Staged.proceed (h : Staged r) {c : StopCall} (current : r.stop = some c) {next : StopStep}
    (start : r'.start = r.start) (stop : r'.stop = some { c with step := next })
    (calls : r'.calls = r.calls) (control : r'.control = r.control)
    (gate : next.isOpen = true → r'.acceptingEvents = true)
    (closed : r'.queue.closed = next.hasClosed) (size : r'.queue.size = r.queue.size)
    (forward : c.step.hasClosed = true → next.hasClosed = true)
    (joined : next.hasJoined = true → r.control = .exited)
    (returned : ∀ call, r.calls[c.call]? = some call → call.step.isReturned = true) :
    Staged r' := by
  have started : r'.start = some .returned := start.trans (h.ordered (by simp [current]))
  refine ⟨?_, ?_, ?_, ?_, ?_, ?_, ?_⟩
  · intro absent
    have := absent _ started
    contradiction
  · intro s _ _ isOpen
    exact gate (isOpen _ stop)
  · exact fun _ => started
  · rw [closed, stop]
    simp
  · intro c' current' hasJoined
    cases stop.symm.trans current'
    rw [control]
    exact joined hasJoined
  · intro gone
    rw [control] at gone
    obtain ⟨shut, empty⟩ := h.exited gone
    obtain ⟨c', current', hasClosed⟩ := h.closed.mp shut
    cases current.symm.trans current'
    exact ⟨closed.trans (forward hasClosed), size.trans empty⟩
  · intro c' current'
    cases stop.symm.trans current'
    obtain ⟨call, here, event, -⟩ := h.shutdown c current
    exact ⟨call, calls ▸ here, event, fun _ => returned call here⟩

theorem isReturned_of_hasReturned {p : Pipeline} {index : Nat}
    (returned : p.hasReturned index = true) {call : PublishCall}
    (here : p.calls[index]? = some call) : call.step.isReturned = true := by
  rw [Pipeline.hasReturned, here] at returned
  obtain ⟨event, step⟩ := call
  cases step <;> first | rfl | contradiction

/-- A step of `stop` that neither closes the queue nor needs a look at it. -/
theorem Staged.pass (h : Staged r) {c : StopCall} (current : r.stop = some c)
    (later : c.step ≠ .publishing) {next : StopStep} (start : r'.start = r.start)
    (stop : r'.stop = some { c with step := next }) (calls : r'.calls = r.calls)
    (control : r'.control = r.control) (queue : r'.queue = r.queue) (refusing : next.isOpen = false)
    (same : next.hasClosed = c.step.hasClosed)
    (joined : next.hasJoined = true → r.control = .exited) : Staged r' := by
  have closed : r.queue.closed = c.step.hasClosed := by
    rw [Bool.eq_iff_iff, h.closed, current]
    simp
  refine h.proceed current start stop calls control ?_ ?_ (by rw [queue]) (same ▸ id) joined
    (fun call => h.answered current later)
  · intro isOpen
    rw [refusing] at isOpen
    contradiction
  · rw [queue, same, closed]

theorem Staged.stops (h : Staged r) {c : StopCall} (current : r.stop = some c)
    (moved : Stops r c r') : Staged r' := by
  cases moved with
  | published stage returned =>
    obtain ⟨accepting, live⟩ := h.open_gate current stage
    exact h.proceed current rfl rfl rfl rfl (fun _ => accepting) live rfl
      (by simp [stage, StopStep.hasClosed]) nofun (fun call => isReturned_of_hasReturned returned)
  | closes stage =>
    exact h.proceed current rfl rfl rfl rfl nofun rfl rfl (fun _ => rfl) nofun
      (fun call => h.answered current (by simp [stage]))
  | joinsControl stage gone =>
    exact h.pass current (by simp [stage]) rfl rfl rfl rfl rfl rfl (by rw [stage]; rfl)
      (fun _ => gone)
  | lowers stage =>
    exact h.pass current (by simp [stage]) rfl rfl rfl rfl rfl rfl (by rw [stage]; rfl)
      (fun _ => h.joined c current (by rw [stage]; rfl))
  | again stage => exact h
  | _ stage =>
    exact h.pass current (by simp [stage]) rfl rfl rfl rfl rfl rfl (by rw [stage]; rfl) nofun

theorem Staged.publish (h : Staged r) (event : Event) : Staged (r.publish event) where
  unspawned := h.unspawned
  gate := h.gate
  ordered := h.ordered
  closed := h.closed
  joined := h.joined
  exited := h.exited
  shutdown c current := by
    obtain ⟨call, here, rest⟩ := h.shutdown c current
    have inside := (List.getElem?_eq_some_iff.mp here).1
    exact ⟨call, (List.getElem?_append_left inside).trans here, rest⟩

/-- The first step of `stop` publishes its request. -/
theorem Staged.requests (h : Staged r) (started : r.start = some .returned)
    (unstopped : r.stop = none) :
    Staged { r.publish .shutdownRequested with stop := some { call := r.calls.length } } := by
  have live := h.open_queue unstopped
  refine ⟨?_, ?_, fun _ => started, ?_, ?_, ?_, ?_⟩
  · intro absent
    have := absent _ started
    contradiction
  · intro s _ _ _
    exact h.gate _ started rfl (by simp [unstopped])
  · rw [show (r.publish .shutdownRequested).queue = r.queue from rfl, live]
    simp [StopStep.hasClosed]
  · rintro c ⟨⟩ joined
    contradiction
  · exact fun gone => absurd gone (h.alive unstopped)
  · rintro c ⟨⟩
    exact ⟨_, List.getElem?_concat_length, rfl, fun later => absurd rfl later⟩

/-- A call of `publish` moves on. -/
theorem Staged.advance (h : Staged r) {index : Nat} {call : PublishCall}
    (here : r.calls[index]? = some call)
    (moved : Pipeline.Advances layout r.toPipeline index call q note) :
    Staged { r with toPipeline := q } := by
  obtain ⟨control, accepting, closed, same⟩ := moved.frame
  obtain ⟨progress, step, calls⟩ := moved.calls
  refine ⟨?_, ?_, h.ordered, ?_, ?_, ?_, ?_⟩
  · intro absent
    exact control.trans (h.unspawned absent)
  · intro s started isOpen still
    exact accepting.trans (h.gate s started isOpen still)
  · rw [closed]
    exact h.closed
  · intro c current joined
    exact control.trans (h.joined c current joined)
  · intro gone
    obtain ⟨shut, empty⟩ := h.exited (control.symm.trans gone)
    rw [same shut]
    exact ⟨shut, empty⟩
  · intro c current
    obtain ⟨call', there, event, returned⟩ := h.shutdown c current
    rw [calls, Recorded.getElem?_move here]
    split
    · rename_i eq
      subst eq
      cases here.symm.trans there
      refine ⟨_, rfl, event, ?_⟩
      intro later
      rw [returned later] at progress
      contradiction
    · exact ⟨call', there, event, returned⟩

theorem Staged.control (h : Staged r) {items : List Handle} (stores : r.queue.Stores items)
    (moved : Pipeline.Controls layout r.toPipeline q note) :
    Staged { r with toPipeline := q } := by
  obtain ⟨calls, accepting, closed, present, alive⟩ := moved.frame
  refine ⟨?_, ?_, h.ordered, ?_, ?_, ?_, ?_⟩
  · intro absent
    exact absurd (h.unspawned absent) present
  · intro s started isOpen still
    exact accepting.trans (h.gate s started isOpen still)
  · rw [closed]
    exact h.closed
  · intro c current joined
    exact absurd (h.joined c current joined) alive
  · intro gone
    cases moved with
    | exits stage popped =>
      obtain ⟨rfl, shut, rfl⟩ := stores.drained popped
      exact ⟨shut, stores.size⟩
    | _ => contradiction
  · rw [calls]
    exact h.shutdown

/- The threads that are not part of the pipeline do not matter here. -/
theorem Staged.frame (h : Staged r) (pipeline : r'.toPipeline = r.toPipeline)
    (start : r'.start = r.start) (stop : r'.stop = r.stop) : Staged r' := by
  constructor
  · rw [pipeline, start]
    exact h.unspawned
  · rw [pipeline, start, stop]
    exact h.gate
  · rw [start, stop]
    exact h.ordered
  · rw [pipeline, stop]
    exact h.closed
  · rw [pipeline, stop]
    exact h.joined
  · rw [pipeline]
    exact h.exited
  · rw [pipeline, stop]
    exact h.shutdown

theorem Starts.flow (moved : Starts r r') (h : Staged r) :
    Pipeline.Flow layout r.toPipeline r'.toPipeline .silent := by
  cases moved with
  | opens stage => exact .gate true
  | spawnsControl stage => exact .spawn (h.unspawned (by simp [stage, StartStep.hasControl]))
  | callsStartup stage => exact .call .startup
  | callsSelfTest stage returned => exact .call .selfTestPassed
  | _ => exact .idle

theorem Stops.flow {c : StopCall} (moved : Stops r c r') :
    Pipeline.Flow layout r.toPipeline r'.toPipeline .silent := by
  cases moved with
  | refuses stage => exact .gate false
  | closes stage => exact .close
  | _ => exact .idle

theorem Senses.flow {sample : SensorSample} (moved : Senses r sample r') (h : Staged r) :
    Pipeline.Flow layout r.toPipeline r'.toPipeline .silent ∧ Staged r' := by
  cases moved with
  | publishes stage present running => exact ⟨.call _, (h.publish _).frame rfl rfl rfl⟩
  | _ => exact ⟨.idle, h.frame rfl rfl rfl⟩

theorem Monitors.flow (moved : Monitors r r') (h : Staged r) :
    Pipeline.Flow layout r.toPipeline r'.toPipeline .silent ∧ Staged r' := by
  cases moved with
  | exits stage stopped => exact ⟨.idle, h.frame rfl rfl rfl⟩
  | ticks stage running =>
    exact ⟨.tick _, h.unspawned, h.gate, h.ordered, h.closed, h.joined, h.exited, h.shutdown⟩

/-- Every step of the system moves the pipeline in one of its ways and keeps
the lifecycle in order. -/
theorem step_flow (h : Staged r) {items : List Handle} (stores : r.queue.Stores items)
    {label : Label} (moved : step layout r label = some (r', note)) :
    Pipeline.Flow layout r.toPipeline r'.toPipeline note ∧ Staged r' := by
  cases step_cases moved with
  | starts taken => exact ⟨taken.flow h, h.starts taken⟩
  | unstarted stage => exact ⟨.idle, h⟩
  | requests started unstopped =>
    exact ⟨.call .shutdownRequested, h.requests started unstopped⟩
  | stops current taken => exact ⟨taken.flow, h.stops current taken⟩
  | publishes event => exact ⟨.call event, h.publish event⟩
  | advances here taken =>
    exact ⟨.advance here taken, h.advance here (Pipeline.advance_cases taken)⟩
  | controls taken =>
    exact ⟨.control taken, h.control stores (Pipeline.controlLoop_cases taken)⟩
  | senses taken => exact taken.flow h
  | monitors taken => exact taken.flow h

end Steps

end EdgeRuntime

end EdgeSentinel
