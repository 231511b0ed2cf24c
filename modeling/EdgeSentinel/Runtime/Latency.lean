import Mathlib.Data.List.MinMax
import Mathlib.Order.Nat
import EdgeSentinel.Library.Counting
import EdgeSentinel.Library.Exec
import EdgeSentinel.Runtime.Pipeline

/-! `record_processed` under contention. Any number of calls are under way, and every access
to an atomic is a step of its own. What a call has observed can only be out of date in one
direction, since the maximum never decreases. -/
namespace EdgeSentinel

/- Where a call of `record_processed` stands; `exchanging` is the head of its loop. -/
inductive RecordStep where
  | counting
  | storing
  | loading
  | exchanging (observed : Nat)
  | returned
  deriving DecidableEq, Repr

structure RecordCall where
  latency : UInt64
  step : RecordStep := .counting
  deriving DecidableEq, Repr

/- What the maximum must have reached: a value that the call has read from it, or its own. -/
def RecordCall.floor (call : RecordCall) : Nat :=
  match call.step with
  | .exchanging observed => observed
  | .returned => call.latency.toNat
  | _ => 0

/- The metrics and all calls that were ever made. -/
structure Recorders where
  metrics : RuntimeMetrics := {}
  calls : List RecordCall := []
  deriving DecidableEq, Repr

/- `spurious` lets a weak exchange fail although the values agree. -/
inductive RecordLabel where
  | call (latency : UInt64)
  | advance (index : Nat) (spurious : Bool)
  deriving DecidableEq, Repr

namespace Recorders

def move (r : Recorders) (index : Nat) (call : RecordCall) (step : RecordStep) : Recorders :=
  { r with calls := r.calls.set index { call with step } }

def advance (r : Recorders) (index : Nat) (spurious : Bool) (call : RecordCall) :
    Option Recorders :=
  match call.step with
  | .counting =>
    some ({ r with metrics :=
      { r.metrics with eventsProcessed := SizeT.increment r.metrics.eventsProcessed } }.move index
        call .storing)
  | .storing =>
    some ({ r with metrics := { r.metrics with lastEventLatencyNs := call.latency.toNat } }.move
      index call .loading)
  | .loading => some (r.move index call (.exchanging r.metrics.maxEventLatencyNs))
  | .exchanging observed =>
    if observed < call.latency.toNat then
      if r.metrics.maxEventLatencyNs = observed ∧ spurious = false then
        some ({ r with metrics := { r.metrics with maxEventLatencyNs := call.latency.toNat } }.move
          index call .returned)
      -- A failed exchange leaves the current value in `observed`.
      else some (r.move index call (.exchanging r.metrics.maxEventLatencyNs))
    else some (r.move index call .returned)
  | .returned => none

def step (r : Recorders) : RecordLabel → Option (Recorders × Unit)
  | .call latency => some ({ r with calls := r.calls ++ [{ latency }] }, ())
  | .advance index spurious => (r.calls[index]?.bind (r.advance index spurious)).map (·, ())

/-- What one step of a call can be. -/
inductive Records (r : Recorders) (index : Nat) (call : RecordCall) : Recorders → Prop where
  | counts (stage : call.step = .counting) :
      Records r index call ({ r with metrics :=
        { r.metrics with eventsProcessed := SizeT.increment r.metrics.eventsProcessed } }.move index
          call .storing)
  | stores (stage : call.step = .storing) :
      Records r index call ({ r with metrics :=
        { r.metrics with lastEventLatencyNs := call.latency.toNat } }.move index call .loading)
  | observes (stage : call.step = .loading ∨ ∃ observed, call.step = .exchanging observed) :
      Records r index call (r.move index call (.exchanging r.metrics.maxEventLatencyNs))
  | exchanges (stage : call.step = .exchanging r.metrics.maxEventLatencyNs)
      (lower : r.metrics.maxEventLatencyNs < call.latency.toNat) :
      Records r index call ({ r with metrics :=
        { r.metrics with maxEventLatencyNs := call.latency.toNat } }.move index call .returned)
  | leaves {observed : Nat} (stage : call.step = .exchanging observed)
      (higher : call.latency.toNat ≤ observed) : Records r index call (r.move index call .returned)

theorem advance_cases {r r' : Recorders} {index : Nat} {spurious : Bool} {call : RecordCall}
    (moved : r.advance index spurious call = some r') : Records r index call r' := by
  unfold advance at moved
  cases stage : call.step with
  | counting =>
    rw [stage] at moved
    cases moved
    exact .counts stage
  | storing =>
    rw [stage] at moved
    cases moved
    exact .stores stage
  | loading =>
    rw [stage] at moved
    cases moved
    exact .observes (.inl stage)
  | exchanging observed =>
    simp only [stage] at moved
    split at moved
    · rename_i lower
      split at moved
      · rename_i agree
        obtain ⟨rfl, -⟩ := agree
        cases moved
        exact .exchanges stage lower
      · cases moved
        exact .observes (.inr ⟨observed, stage⟩)
    · rename_i higher
      cases moved
      exact .leaves stage (Nat.not_lt.mp higher)
  | returned =>
    rw [stage] at moved
    contradiction

/- The latencies of all calls. -/
def latencies (r : Recorders) : List Nat := r.calls.map fun call => call.latency.toNat

/- The calls that have passed their first step. -/
def counted (r : Recorders) : Nat := r.calls.countP fun call => call.step ≠ .counting

/-- What a call relies on: no observation is above the maximum, and no call that has
returned is either. -/
structure Bounded (r : Recorders) : Prop where
  floor : ∀ call ∈ r.calls, call.floor ≤ r.metrics.maxEventLatencyNs
  reached : r.metrics.maxEventLatencyNs = 0 ∨ r.metrics.maxEventLatencyNs ∈ r.latencies
  processed : r.metrics.eventsProcessed = r.counted % 2 ^ 64

theorem bounded_start : Bounded {} where
  floor := nofun
  reached := .inl rfl
  processed := rfl

section Steps

variable {r r' : Recorders} {index : Nat} {call : RecordCall}

/- A call keeps its latency on its way. -/
theorem latencies_set (here : r.calls[index]? = some call) (step : RecordStep) :
    (r.calls.set index { call with step }).map (fun call => call.latency.toNat) = r.latencies := by
  obtain ⟨bound, same⟩ := List.getElem?_eq_some_iff.mp here
  have inside : index < r.latencies.length := by simpa [latencies] using bound
  have value : r.latencies[index] = call.latency.toNat := by simp [latencies, same]
  rw [List.map_set]
  change r.latencies.set index call.latency.toNat = r.latencies
  rw [← value, List.set_getElem_self]

/-- The maximum goes up, if at all, to the latency of the call that moves, and far enough for
what the call relies on behind the step. -/
theorem Records.maximum (moved : Records r index call r')
    (seen : call.floor ≤ r.metrics.maxEventLatencyNs) :
    ∃ step, r'.calls = r.calls.set index { call with step } ∧
      ({ call with step } : RecordCall).floor ≤ r'.metrics.maxEventLatencyNs ∧
      r.metrics.maxEventLatencyNs ≤ r'.metrics.maxEventLatencyNs ∧
      (r'.metrics.maxEventLatencyNs = r.metrics.maxEventLatencyNs ∨
        r'.metrics.maxEventLatencyNs = call.latency.toNat) := by
  cases moved with
  | counts stage => exact ⟨_, rfl, Nat.zero_le _, Nat.le_refl _, .inl rfl⟩
  | stores stage => exact ⟨_, rfl, Nat.zero_le _, Nat.le_refl _, .inl rfl⟩
  | observes stage => exact ⟨_, rfl, Nat.le_refl _, Nat.le_refl _, .inl rfl⟩
  | exchanges stage lower => exact ⟨_, rfl, Nat.le_refl _, lower.le, .inr rfl⟩
  | leaves stage higher =>
    rw [RecordCall.floor, stage] at seen
    exact ⟨_, rfl, higher.trans seen, Nat.le_refl _, .inl rfl⟩

/-- The first step of a call is the one that counts it. -/
theorem Records.counter (moved : Records r index call r') :
    ∃ step, r'.calls = r.calls.set index { call with step } ∧ step ≠ .counting ∧
      r'.metrics.eventsProcessed =
        if call.step = .counting then SizeT.increment r.metrics.eventsProcessed
        else r.metrics.eventsProcessed := by
  cases moved with
  | counts stage => exact ⟨_, rfl, nofun, (if_pos stage).symm⟩
  | stores stage => exact ⟨_, rfl, nofun, (if_neg (by rw [stage]; nofun)).symm⟩
  | observes stage =>
    have passed : call.step ≠ .counting := by
      rcases stage with stage | ⟨observed, stage⟩ <;> rw [stage] <;> nofun
    exact ⟨_, rfl, nofun, (if_neg passed).symm⟩
  | exchanges stage lower => exact ⟨_, rfl, nofun, (if_neg (by rw [stage]; nofun)).symm⟩
  | leaves stage higher => exact ⟨_, rfl, nofun, (if_neg (by rw [stage]; nofun)).symm⟩

theorem Bounded.records (h : Bounded r) (here : r.calls[index]? = some call)
    (moved : Records r index call r') :
    Bounded r' ∧ r.metrics.maxEventLatencyNs ≤ r'.metrics.maxEventLatencyNs := by
  obtain ⟨step, calls, floor, rises, value⟩ :=
    moved.maximum (h.floor call (List.mem_of_getElem? here))
  have kept : r'.latencies = r.latencies := by
    rw [latencies, calls]
    exact latencies_set here step
  refine ⟨⟨?_, ?_, ?_⟩, rises⟩
  · intro other present
    rw [calls] at present
    rcases List.mem_or_eq_of_mem_set present with old | rfl
    · exact (h.floor other old).trans rises
    · exact floor
  · rw [kept]
    rcases value with same | own
    · rw [same]
      exact h.reached
    · rw [own]
      exact .inr (List.mem_map_of_mem (List.mem_of_getElem? here))
  · obtain ⟨step, calls, passed, events⟩ := moved.counter
    have count : r'.counted + (decide (call.step ≠ .counting)).toNat = r.counted + 1 := by
      rw [counted, calls]
      have update := List.countP_set_add (fun call : RecordCall => decide (call.step ≠ .counting))
        here { call with step }
      rw [decide_eq_true passed] at update
      exact update
    rw [events, h.processed]
    split
    · rename_i first
      rw [first] at count
      rw [SizeT.increment, Nat.mod_add_mod]
      exact congrArg (· % 2 ^ 64) count.symm
    · rename_i later
      rw [decide_eq_true later] at count
      exact congrArg (· % 2 ^ 64) (Nat.add_right_cancel count).symm

theorem Bounded.enters (h : Bounded r) (latency : UInt64) :
    Bounded { r with calls := r.calls ++ [{ latency }] } where
  floor := by
    intro call present
    rcases List.mem_append.mp present with old | new
    · exact h.floor call old
    · rw [List.mem_singleton.mp new]
      exact Nat.zero_le _
  reached := by
    refine h.reached.imp_right fun old => ?_
    rw [latencies, List.map_append]
    exact List.mem_append_left _ old
  processed := by
    rw [counted, List.countP_append]
    exact h.processed

theorem Bounded.step (h : Bounded r) {label : RecordLabel} {answer : Unit}
    (moved : r.step label = some (r', answer)) :
    Bounded r' ∧ r.metrics.maxEventLatencyNs ≤ r'.metrics.maxEventLatencyNs := by
  cases label with
  | call latency =>
    cases moved
    exact ⟨h.enters latency, Nat.le_refl _⟩
  | advance index spurious =>
    obtain ⟨next, taken, same⟩ := Option.map_eq_some_iff.mp moved
    cases same
    obtain ⟨call, here, taken⟩ := Option.bind_eq_some_iff.mp taken
    exact h.records here (advance_cases taken)

theorem Bounded.run (h : Bounded r) {labels : List RecordLabel} {answers : List Unit}
    (history : Exec.run Recorders.step r labels = some (r', answers)) :
    Bounded r' ∧ r.metrics.maxEventLatencyNs ≤ r'.metrics.maxEventLatencyNs := by
  refine Exec.run_induction
    (P := fun _ _ r' => Bounded r' ∧ r.metrics.maxEventLatencyNs ≤ r'.metrics.maxEventLatencyNs)
    ⟨h, Nat.le_refl _⟩ ?_ history
  rintro _ _ t label u answer ⟨bounded, rises⟩ moved
  obtain ⟨next, further⟩ := bounded.step moved
  exact ⟨next, rises.trans further⟩

/-- A maximum that is reached and not exceeded is the maximum of the latencies. -/
theorem Bounded.settled (h : Bounded r) (finished : ∀ call ∈ r.calls, call.step = .returned) :
    r.metrics.maxEventLatencyNs = r.latencies.foldr max 0 ∧
      r.metrics.eventsProcessed = r.calls.length % 2 ^ 64 := by
  constructor
  · apply Nat.le_antisymm
    · rcases h.reached with zero | reached
      · rw [zero]
        exact Nat.zero_le _
      · exact List.le_max_of_le reached (Nat.le_refl _)
    · apply List.max_le_of_forall_le
      intro latency present
      obtain ⟨call, there, rfl⟩ := List.mem_map.mp present
      have floor := h.floor call there
      rw [RecordCall.floor, finished call there] at floor
      exact floor
  · rw [h.processed, counted, List.countP_eq_length.mpr]
    intro call there
    rw [finished call there]
    rfl

end Steps

/-- A call that nobody interrupts does what the control loop's own step does. -/
theorem run_alone (r : Recorders) (latency : UInt64) :
    Exec.run step r (.call latency :: List.replicate 4 (.advance r.calls.length false)) =
      some ({ metrics := r.metrics.recordProcessed latency.toNat,
              calls := r.calls ++ [⟨latency, .returned⟩] }, List.replicate 5 ()) := by
  have moves : ∀ metrics stage next,
      move ⟨metrics, r.calls ++ [⟨latency, stage⟩]⟩ r.calls.length ⟨latency, stage⟩ next =
        ⟨metrics, r.calls ++ [⟨latency, next⟩]⟩ := by
    intro metrics stage next
    simp [move]
  simp only [List.replicate, Exec.run, step, List.getElem?_concat_length, Option.bind_some,
    Option.map_some, advance, moves]
  split <;> simp [RuntimeMetrics.recordProcessed, *]

/-- Nothing that contention does to the calls makes the maximum lose a latency. -/
theorem latency_maximum_survives (labels : List RecordLabel) (r : Recorders)
    (answers : List Unit) (history : Exec.run step {} labels = some (r, answers)) :
    (∀ more r' later, Exec.run step r more = some (r', later) →
      r.metrics.maxEventLatencyNs ≤ r'.metrics.maxEventLatencyNs) ∧
    (r.metrics.maxEventLatencyNs = 0 ∨
      ∃ call ∈ r.calls, call.latency.toNat = r.metrics.maxEventLatencyNs) ∧
    (∀ call ∈ r.calls, call.step = .returned →
      call.latency.toNat ≤ r.metrics.maxEventLatencyNs) ∧
    ((∀ call ∈ r.calls, call.step = .returned) →
      r.metrics.maxEventLatencyNs = r.latencies.foldr max 0 ∧
        r.metrics.eventsProcessed = r.calls.length % 2 ^ 64) := by
  have bounded := (bounded_start.run history).1
  refine ⟨?_, ?_, ?_, bounded.settled⟩
  · intro more r' later further
    exact (bounded.run further).2
  · exact bounded.reached.imp_right List.mem_map.mp
  · intro call present finished
    have floor := bounded.floor call present
    rw [RecordCall.floor, finished] at floor
    exact floor

/- Two calls read the maximum before either has raised it, and an exchange fails once. -/
def contended : List RecordLabel :=
  [.call 7, .call 9] ++ List.replicate 3 (.advance 0 false) ++
    List.replicate 3 (.advance 1 false) ++
    [.advance 1 true, .advance 0 false, .advance 1 false, .advance 1 false]

theorem latency_maximum_survives_contended :
    ∃ r answers, Exec.run step {} contended = some (r, answers) ∧
      r.metrics.maxEventLatencyNs = 9 ∧ r.metrics.eventsProcessed = 2 := by
  have outcome : (Exec.run step {} contended).any
      (fun (r, _) => r.calls = [⟨7, .returned⟩, ⟨9, .returned⟩]) = true := by
    decide +kernel
  obtain ⟨⟨r, answers⟩, history, calls⟩ := (Option.any_eq_true _ _).mp outcome
  have calls : r.calls = [⟨7, .returned⟩, ⟨9, .returned⟩] := of_decide_eq_true calls
  obtain ⟨-, -, -, settled⟩ := latency_maximum_survives contended r answers history
  rw [latencies, calls] at settled
  exact ⟨r, answers, history, settled (by decide)⟩

end Recorders

end EdgeSentinel
