import EdgeSentinel.Library.Counting
import EdgeSentinel.Library.Exec
import EdgeSentinel.Pool.Ownership
import EdgeSentinel.Queue.Fifo
import EdgeSentinel.Runtime.Pipeline

/-! Events on their way through the pipeline. Every handle is in one place: with
a call of `publish`, in the queue or with the control loop. Following the handles
follows the events, and what the machine has handled is what was pushed first. -/
namespace EdgeSentinel

def PublishStep.held : PublishStep → Option Handle
  | .pushing handle => some handle
  | .releasing handle _ => some handle
  | _ => none

def PublishCall.owned (call : PublishCall) : Option (Handle × Event) :=
  call.step.held.map (·, call.event)

def ControlStep.held : ControlStep → Option Handle
  | .popped handle => some handle
  | .handled handle _ _ => some handle
  | .processed handle _ => some handle
  | .releasing handle => some handle
  | _ => none

/- Between `wait_pop` and `handle`. -/
def ControlStep.hasPopped : ControlStep → Bool
  | .popped _ => true
  | _ => false

def Note.pushedEvent : Note → Option Event
  | .pushed _ event => some event
  | _ => none

def Note.handledEvent : Note → Option Event
  | .handled event => some event
  | _ => none

def pushedEvents (notes : List Note) : List Event := notes.filterMap Note.pushedEvent

def handledEvents (notes : List Note) : List Event := notes.filterMap Note.handledEvent

namespace Pipeline

/-- Everything that can happen to the pipeline, whichever thread does it. -/
inductive Flow (layout : Layout) (p : Pipeline) : Pipeline → Note → Prop where
  | idle : Flow layout p p .silent
  | call (event : Event) : Flow layout p (p.call event) .silent
  | gate (accepting : Bool) : Flow layout p { p with acceptingEvents := accepting } .silent
  | tick (metrics : RuntimeMetrics) : Flow layout p { p with metrics } .silent
  | spawn (absent : p.control = .absent) : Flow layout p { p with control := .waiting } .silent
  | close : Flow layout p { p with queue := p.queue.close } .silent
  | advance {index now : Nat} {call : PublishCall} {q : Pipeline} {note : Note}
      (here : p.calls[index]? = some call)
      (moved : p.advance layout index now call = some (q, note)) : Flow layout p q note
  | control {now : Nat} {q : Pipeline} {note : Note}
      (moved : p.controlLoop layout now = some (q, note)) : Flow layout p q note

/-- Where the events are: `backlog` in the queue, `inHand` with the control loop. -/
structure Carries (layout : Layout) (start : MotorStateMachine) (notes : List Note) (p : Pipeline)
    (backlog : List (Handle × Event)) (inHand : Option (Handle × Event)) : Prop where
  queue : p.queue.Stores (backlog.map Prod.fst)
  control : p.control.held = inHand.map Prod.fst
  owners : p.pool.Holds PooledEvent.event layout
    (p.calls.filterMap PublishCall.owned ++ (inHand.toList ++ backlog))
  order : pushedEvents notes = handledEvents notes ++
    ((if p.control.hasPopped then inHand.toList else []) ++ backlog).map Prod.snd
  machine : p.machine = Mealy.final MotorStateMachine.handle start (handledEvents notes)

theorem pushedEvents_append (notes later : List Note) :
    pushedEvents (notes ++ later) = pushedEvents notes ++ pushedEvents later :=
  List.filterMap_append ..

@[simp] theorem pushedEvents_concat (notes : List Note) (note : Note) :
    pushedEvents (notes ++ [note]) = pushedEvents notes ++ note.pushedEvent.toList := by
  cases note <;> simp [pushedEvents, Note.pushedEvent]

@[simp] theorem handledEvents_concat (notes : List Note) (note : Note) :
    handledEvents (notes ++ [note]) = handledEvents notes ++ note.handledEvent.toList := by
  cases note <;> simp [handledEvents, Note.handledEvent]

section Calls

variable {p : Pipeline} {index : Nat} {call : PublishCall}

/- The handles of all calls after one of them has moved. -/
theorem owned_move (here : p.calls[index]? = some call) (step : PublishStep) :
    (call.owned.toList ++ (p.move index call step).calls.filterMap PublishCall.owned).Perm
      (({ call with step } : PublishCall).owned.toList ++ p.calls.filterMap PublishCall.owned) :=
  List.perm_filterMap_set PublishCall.owned here _

theorem owned_same (here : p.calls[index]? = some call) {step : PublishStep}
    (same : step.held = call.step.held) :
    ((p.move index call step).calls.filterMap PublishCall.owned).Perm
      (p.calls.filterMap PublishCall.owned) := by
  have moved := owned_move here step
  rw [show ({ call with step } : PublishCall).owned = call.owned from
    congrArg (Option.map _) same] at moved
  exact (List.perm_append_left_iff _).mp moved

theorem owned_gain (here : p.calls[index]? = some call) (step : PublishStep) {handle : Handle}
    (before : call.step.held = none) (after : step.held = some handle) :
    ((p.move index call step).calls.filterMap PublishCall.owned).Perm
      ((handle, call.event) :: p.calls.filterMap PublishCall.owned) := by
  have moved := owned_move here step
  simpa [PublishCall.owned, before, after] using moved

theorem owned_lose (here : p.calls[index]? = some call) (step : PublishStep) {handle : Handle}
    (before : call.step.held = some handle) (after : step.held = none) :
    (p.calls.filterMap PublishCall.owned).Perm
      ((handle, call.event) :: (p.move index call step).calls.filterMap PublishCall.owned) := by
  have moved := owned_move here step
  simpa [PublishCall.owned, before, after] using moved.symm

end Calls

section Preservation

variable {layout : Layout} {start : MotorStateMachine} {notes : List Note} {p q : Pipeline}
  {backlog : List (Handle × Event)} {inHand : Option (Handle × Event)} {note : Note}

theorem carries_start : Carries layout start [] { machine := start } [] none where
  queue := BoundedQueue.stores_empty (by decide)
  control := rfl
  owners := FixedObjectPool.holds_empty
  order := rfl
  machine := rfl

/-- A call that keeps its handle, or keeps having none, changes nothing here. -/
theorem Carries.move (h : Carries layout start notes p backlog inHand) {index : Nat}
    {call : PublishCall} (here : p.calls[index]? = some call) {step : PublishStep}
    (same : step.held = call.step.held) :
    Carries layout start notes (p.move index call step) backlog inHand :=
  ⟨h.queue, h.control, h.owners.perm ((owned_same here same).symm.append_right _), h.order,
    h.machine⟩

theorem Carries.silent (h : Carries layout start notes p backlog inHand) :
    Carries layout start (notes ++ [.silent]) p backlog inHand := by
  refine ⟨h.queue, h.control, h.owners, ?_, ?_⟩
  · simpa [Note.pushedEvent, Note.handledEvent] using h.order
  · simpa [Note.handledEvent] using h.machine

theorem Carries.advance (h : Carries layout start notes p backlog inHand) {index : Nat}
    {call : PublishCall} (here : p.calls[index]? = some call)
    (moved : Advances layout p index call q note) :
    ∃ backlog', Carries layout start (notes ++ [note]) q backlog' inHand := by
  cases moved with
  | admitted stage accepting => exact ⟨_, (h.move here (by rw [stage]; rfl)).silent⟩
  | turnedAway stage refusing => exact ⟨_, (h.move here (by rw [stage]; rfl)).silent⟩
  | @allocated now pool handle stage created some =>
    obtain ⟨-, pool', empty, -⟩ | ⟨-, pool', handle', full, -, owners⟩ :=
      h.owners.tryCreate (ε := Empty) ⟨call.event, now⟩
    · cases created.symm.trans empty
      exact absurd rfl some
    · cases created.symm.trans full
      have gained := owned_gain here (.pushing handle) (by rw [stage]; rfl) rfl
      refine ⟨backlog, Carries.silent ⟨h.queue, h.control, ?_, h.order, h.machine⟩⟩
      exact owners.perm (gained.symm.append_right _)
  | @exhausted now pool handle stage created none =>
    obtain ⟨-, pool', empty, owners⟩ | ⟨-, pool', handle', full, some, -⟩ :=
      h.owners.tryCreate (ε := Empty) ⟨call.event, now⟩
    · cases created.symm.trans empty
      have kept : Carries layout start notes { p with pool } backlog inHand :=
        ⟨h.queue, h.control, owners, h.order, h.machine⟩
      exact ⟨backlog, (kept.move here (by rw [stage]; rfl)).silent⟩
    · cases created.symm.trans full
      exact absurd none some
  | @pushed handle queue stage landed =>
    obtain ⟨-, -, -, stored⟩ := h.queue.landed landed
    have lost := owned_lose here .recording (by rw [stage]; rfl) rfl
    refine ⟨backlog ++ [(handle, call.event)], ?_, h.control, ?_, ?_, ?_⟩
    · rw [List.map_append]
      exact stored
    · refine h.owners.perm ((lost.append_right _).trans ?_)
      have last := List.perm_append_singleton (handle, call.event)
        ((p.move index call .recording).calls.filterMap PublishCall.owned ++
          (inHand.toList ++ backlog))
      simp only [List.append_assoc] at last
      exact last.symm
    · rw [pushedEvents_concat, h.order]
      simp only [handledEvents_concat, Note.pushedEvent, Note.handledEvent, Option.toList_some,
        Option.toList_none, List.append_nil, List.map_append, List.append_assoc]
      rfl
    · simp only [handledEvents_concat, Note.handledEvent, Option.toList_none, List.append_nil]
      exact h.machine
  | @refused handle queue answer result stage missed other failed =>
    obtain ⟨-, stored, -⟩ := h.queue.missed missed other
    have kept : Carries layout start notes { p with queue } backlog inHand :=
      ⟨stored, h.control, h.owners, h.order, h.machine⟩
    exact ⟨backlog, (kept.move here (by rw [stage]; rfl)).silent⟩
  | @released handle result stage =>
    have lost := owned_lose here (.dropping result) (by rw [stage]; rfl) rfl
    have owners := (h.owners.perm (lost.append_right _)).reset
    exact ⟨backlog, Carries.silent ⟨h.queue, h.control, owners, h.order, h.machine⟩⟩
  | recorded stage =>
    have kept : Carries layout start notes { p with metrics := p.metrics.recordPublished }
        backlog inHand := ⟨h.queue, h.control, h.owners, h.order, h.machine⟩
    exact ⟨backlog, (kept.move here (by rw [stage]; rfl)).silent⟩
  | dropped stage =>
    have kept : Carries layout start notes { p with metrics := p.metrics.recordDropped }
        backlog inHand := ⟨h.queue, h.control, h.owners, h.order, h.machine⟩
    exact ⟨backlog, (kept.move here (by rw [stage]; rfl)).silent⟩

/-- The control loop reads the event that was pushed with the handle. -/
theorem Carries.read (h : Carries layout start notes p backlog inHand) {handle : Handle}
    {event : Event} (held : inHand = some (handle, event)) :
    (p.read layout handle).event = event := by
  have member : (handle, event) ∈
      p.calls.filterMap PublishCall.owned ++ (inHand.toList ++ backlog) := by
    simp [held]
  have known := h.owners.deref member
  rw [Pipeline.read]
  cases object : p.pool.deref layout handle with
  | none =>
    rw [object] at known
    contradiction
  | some pooled =>
    rw [object] at known
    exact Option.some.inj known

theorem Carries.controls (h : Carries layout start notes p backlog inHand)
    (moved : Controls layout p q note) :
    ∃ backlog' inHand', Carries layout start (notes ++ [note]) q backlog' inHand' := by
  have control := h.control
  have order := h.order
  cases moved with
  | exits stage popped =>
    obtain ⟨rfl, -, -⟩ := h.queue.drained popped
    rw [stage] at control order
    exact ⟨backlog, inHand, Carries.silent ⟨h.queue, control, h.owners, order, h.machine⟩⟩
  | @pops queue handle stage popped =>
    obtain ⟨rest, items, -, stored⟩ := h.queue.popped popped
    obtain ⟨⟨first, event⟩, later, rfl, rfl, rfl⟩ := List.map_eq_cons_iff.mp items
    rw [stage] at control order
    have empty : inHand = none := Option.map_eq_none_iff.mp control.symm
    subst empty
    exact ⟨later, some (first, event), Carries.silent ⟨stored, rfl, h.owners, order, h.machine⟩⟩
  | @handles handle latency stage =>
    rw [stage] at control order
    obtain ⟨⟨handle', event⟩, held, rfl⟩ := Option.map_eq_some_iff.mp control.symm
    rw [h.read held]
    refine ⟨backlog, inHand, h.queue, control, h.owners, ?_, ?_⟩
    · rw [pushedEvents_concat, handledEvents_concat, order, held]
      simp [Note.pushedEvent, Note.handledEvent, ControlStep.hasPopped]
    · rw [handledEvents_concat, h.machine]
      exact (Mealy.final_concat _ _ _ _).symm
  | @processes handle latency transition stage =>
    rw [stage] at control order
    exact ⟨backlog, inHand, Carries.silent ⟨h.queue, control, h.owners, order, h.machine⟩⟩
  | @records handle transition stage =>
    rw [stage] at control order
    exact ⟨backlog, inHand, Carries.silent ⟨h.queue, control, h.owners, order, h.machine⟩⟩
  | @releases handle stage =>
    rw [stage] at control order
    obtain ⟨⟨handle', event⟩, held, rfl⟩ := Option.map_eq_some_iff.mp control.symm
    subst held
    have owners := (h.owners.perm List.perm_middle).reset
    exact ⟨backlog, none, Carries.silent ⟨h.queue, rfl, owners, order, h.machine⟩⟩

/-- Whatever happens, every event stays in exactly one place. -/
theorem Carries.flow (h : Carries layout start notes p backlog inHand)
    (moved : Flow layout p q note) :
    ∃ backlog' inHand', Carries layout start (notes ++ [note]) q backlog' inHand' := by
  cases moved with
  | idle => exact ⟨backlog, inHand, h.silent⟩
  | call event =>
    have owners : (p.call event).calls.filterMap PublishCall.owned =
        p.calls.filterMap PublishCall.owned := by
      simp [Pipeline.call, PublishCall.owned, PublishStep.held]
    exact ⟨backlog, inHand,
      Carries.silent ⟨h.queue, h.control, owners ▸ h.owners, h.order, h.machine⟩⟩
  | gate accepting =>
    exact ⟨backlog, inHand, Carries.silent ⟨h.queue, h.control, h.owners, h.order, h.machine⟩⟩
  | tick metrics =>
    exact ⟨backlog, inHand, Carries.silent ⟨h.queue, h.control, h.owners, h.order, h.machine⟩⟩
  | spawn absent =>
    have control := h.control
    have order := h.order
    rw [absent] at control order
    exact ⟨backlog, inHand, Carries.silent ⟨h.queue, control, h.owners, order, h.machine⟩⟩
  | close =>
    exact ⟨backlog, inHand,
      Carries.silent ⟨h.queue.close, h.control, h.owners, h.order, h.machine⟩⟩
  | advance here moved =>
    obtain ⟨backlog', next⟩ := h.advance here (advance_cases moved)
    exact ⟨backlog', inHand, next⟩
  | control moved => exact h.controls (controlLoop_cases moved)

end Preservation

end Pipeline

end EdgeSentinel
