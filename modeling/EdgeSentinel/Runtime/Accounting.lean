import EdgeSentinel.Runtime.Ownership

/-! Which calls of `publish` have pushed their event. A call pushes at most once,
and it is told `published` exactly when it did. -/
namespace EdgeSentinel

def Note.pushedCall : Note → Option (Nat × Event)
  | .pushed call event => some (call, event)
  | _ => none

def pushedCalls (notes : List Note) : List (Nat × Event) := notes.filterMap Note.pushedCall

theorem pushedCalls_events (notes : List Note) :
    (pushedCalls notes).map Prod.snd = pushedEvents notes := by
  rw [pushedCalls, List.map_filterMap]
  apply List.filterMap_congr
  intro note _
  cases note <;> rfl

@[simp] theorem pushedCalls_concat (notes : List Note) (note : Note) :
    pushedCalls (notes ++ [note]) = pushedCalls notes ++ note.pushedCall.toList := by
  cases note <;> simp [pushedCalls, Note.pushedCall]

namespace PublishStep

/- The queue has taken the event. -/
def landed : PublishStep → Bool
  | .recording => true
  | .returned .published => true
  | _ => false

/- On its way to report a failure, and not a success. -/
def honest : PublishStep → Bool
  | .releasing _ result => result ≠ .published
  | .dropping result => result ≠ .published
  | _ => true

end PublishStep

/-- What the notes say of the calls. -/
structure Recorded (notes : List Note) (calls : List PublishCall) : Prop where
  known : ∀ i event, (i, event) ∈ pushedCalls notes ↔
    ∃ call, calls[i]? = some call ∧ call.event = event ∧ call.step.landed = true
  once : ((pushedCalls notes).map Prod.fst).Nodup
  honest : ∀ call ∈ calls, call.step.honest = true

theorem recorded_start : Recorded [] [] := by
  refine ⟨?_, List.nodup_nil, ?_⟩
  · intro i event
    simp [pushedCalls]
  · intro call absent
    exact absurd absent List.not_mem_nil

namespace Recorded

variable {notes : List Note} {calls : List PublishCall} {index : Nat} {call : PublishCall}

theorem getElem?_move (here : calls[index]? = some call) (step : PublishStep) (i : Nat) :
    (calls.set index { call with step })[i]? =
      if index = i then some { call with step } else calls[i]? := by
  have inside : index < calls.length := (List.getElem?_eq_some_iff.mp here).1
  rw [List.getElem?_set]
  split <;> rfl

theorem silent (h : Recorded notes calls) : Recorded (notes ++ [.silent]) calls := by
  refine ⟨?_, ?_, h.honest⟩
  · simpa [Note.pushedCall] using h.known
  · simpa [Note.pushedCall] using h.once

theorem handled (h : Recorded notes calls) (event : Event) :
    Recorded (notes ++ [.handled event]) calls := by
  refine ⟨?_, ?_, h.honest⟩
  · simpa [Note.pushedCall] using h.known
  · simpa [Note.pushedCall] using h.once

theorem honest_move (h : Recorded notes calls) {step : PublishStep} (honest : step.honest = true) :
    ∀ other ∈ calls.set index { call with step }, other.step.honest = true := by
  intro other member
  obtain old | rfl := List.mem_or_eq_of_mem_set member
  · exact h.honest other old
  · exact honest

/-- A step of a call that neither pushes nor changes what is known of it. -/
theorem move (h : Recorded notes calls) (here : calls[index]? = some call) {step : PublishStep}
    (same : step.landed = call.step.landed) (honest : step.honest = true) :
    Recorded (notes ++ [.silent]) (calls.set index { call with step }) := by
  refine Recorded.silent ⟨?_, h.once, h.honest_move honest⟩
  intro i event
  rw [h.known, getElem?_move here]
  split
  · rename_i eq
    subst eq
    simp [here, same]
  · rfl

/-- The step that pushes: the call is new among those that have. -/
theorem push (h : Recorded notes calls) (here : calls[index]? = some call) {step : PublishStep}
    (before : call.step.landed = false) (after : step.landed = true)
    (honest : step.honest = true) :
    Recorded (notes ++ [.pushed index call.event]) (calls.set index { call with step }) := by
  have fresh : ∀ event, (index, event) ∉ pushedCalls notes := by
    intro event member
    obtain ⟨call', there, -, landed⟩ := (h.known index event).mp member
    cases here.symm.trans there
    rw [before] at landed
    contradiction
  refine ⟨?_, ?_, h.honest_move honest⟩
  · intro i event
    rw [pushedCalls_concat, List.mem_append, getElem?_move here]
    split
    · rename_i eq
      subst eq
      constructor
      · rintro (old | new)
        · exact absurd old (fresh event)
        · cases List.mem_singleton.mp new
          exact ⟨_, rfl, rfl, after⟩
      · rintro ⟨moved, same, rfl, -⟩
        cases same
        exact .inr (List.mem_singleton.mpr rfl)
    · rename_i other
      rw [h.known]
      simp [Note.pushedCall, Ne.symm other]
  · rw [pushedCalls_concat, List.map_append, List.nodup_append_comm]
    refine List.nodup_cons.mpr ⟨?_, h.once⟩
    intro member
    obtain ⟨⟨i, event⟩, inside, rfl⟩ := List.mem_map.mp member
    exact fresh event inside

theorem issue (h : Recorded notes calls) (event : Event) :
    Recorded (notes ++ [.silent]) (calls ++ [{ event := event }]) := by
  refine Recorded.silent ⟨?_, h.once, ?_⟩
  · intro i pushed
    rw [h.known]
    constructor
    · rintro ⟨call, here, rest⟩
      have inside := (List.getElem?_eq_some_iff.mp here).1
      exact ⟨call, by rw [List.getElem?_append_left inside, here], rest⟩
    · rintro ⟨call, here, same, landed⟩
      obtain old | new := Nat.lt_or_ge i calls.length
      · exact ⟨call, by rw [← here, List.getElem?_append_left old], same, landed⟩
      · rw [List.getElem?_append_right new] at here
        cases List.mem_singleton.mp (List.mem_of_getElem? here)
        contradiction
  · intro call member
    obtain old | new := List.mem_append.mp member
    · exact h.honest call old
    · cases List.mem_singleton.mp new
      rfl

theorem advance {layout : Layout} {p q : Pipeline} {note : Note} (h : Recorded notes p.calls)
    (here : p.calls[index]? = some call) (moved : Pipeline.Advances layout p index call q note) :
    Recorded (notes ++ [note]) q.calls := by
  have honest := h.honest call (List.mem_of_getElem? here)
  cases moved with
  | admitted stage accepting => exact h.move here (by rw [stage]; rfl) rfl
  | turnedAway stage refusing => exact h.move here (by rw [stage]; rfl) rfl
  | allocated stage created some => exact h.move here (by rw [stage]; rfl) rfl
  | exhausted stage created none => exact h.move here (by rw [stage]; rfl) rfl
  | pushed stage landed => exact h.push here (by rw [stage]; rfl) rfl rfl
  | refused stage missed other failed =>
    exact h.move here (by rw [stage]; rfl) (decide_eq_true failed)
  | released stage =>
    rw [stage] at honest
    exact h.move here (by rw [stage]; rfl) honest
  | recorded stage => exact h.move here (by rw [stage]; rfl) rfl
  | @dropped result stage =>
    rw [stage] at honest
    have failed : result ≠ .published := of_decide_eq_true honest
    refine h.move here ?_ rfl
    rw [stage]
    cases result with
    | published => contradiction
    | _ => rfl

theorem flow {layout : Layout} {p q : Pipeline} {note : Note} (h : Recorded notes p.calls)
    (moved : Pipeline.Flow layout p q note) : Recorded (notes ++ [note]) q.calls := by
  cases moved with
  | idle => exact h.silent
  | call event => exact h.issue event
  | gate accepting => exact h.silent
  | tick metrics => exact h.silent
  | spawn absent => exact h.silent
  | close => exact h.silent
  | advance here moved => exact h.advance here (Pipeline.advance_cases moved)
  | control moved =>
    cases Pipeline.controlLoop_cases moved with
    | handles stage => exact h.handled _
    | _ => exact h.silent

end Recorded

end EdgeSentinel
