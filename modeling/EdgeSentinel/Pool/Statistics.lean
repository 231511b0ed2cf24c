import EdgeSentinel.Library.Counting
import EdgeSentinel.Library.Watermark
import EdgeSentinel.Pool.FreeList

/-! The statistics against the history. What a call did is read off its answer; the
counters are the numbers of such answers, and `inUse` is the number of occupied slots. -/
namespace EdgeSentinel.FixedObjectPool

variable {α ε : Type} {capacity : Nat}

/-- Everything that one call can do to a well-linked pool. -/
inductive Did (layout : Layout) (p q : FixedObjectPool α capacity) :
    Call ε α → Answer ε → Prop where
  | exhausted {construct : Except ε α}
      (same : q = { p with stats :=
        { p.stats with allocationFailures := SizeT.increment p.stats.allocationFailures } }) :
      Did layout p q (.tryCreate construct) (.created (.ok {}))
  | thrown {thrown : ε} (same : q = p) :
      Did layout p q (.tryCreate (.error thrown)) (.created (.error thrown))
  | created {object : α} {index : Nat} (bound : index < capacity)
      (free : (p.slot index).occupied = false)
      (slots : ∀ j, q.slot j = if index = j then
        { storage := some object, next := capacity, occupied := true } else p.slot j)
      (stats : q.stats =
        { p.stats with
          inUse := SizeT.increment p.stats.inUse
          successfulAllocations := SizeT.increment p.stats.successfulAllocations
          highWatermark := if SizeT.increment p.stats.inUse > p.stats.highWatermark then
            SizeT.increment p.stats.inUse else p.stats.highWatermark }) :
      Did layout p q (.tryCreate (.ok object))
        (.created (.ok { pool := true, object := layout.address index }))
  | refused {object : Nat} {result : PoolReleaseResult} (other : result ≠ .released)
      (same : q = { p with stats :=
        { p.stats with invalidReleases := SizeT.increment p.stats.invalidReleases } }) :
      Did layout p q (.destroy object) (.destroyed result)
  | released {index : Nat} (bound : index < capacity) (busy : (p.slot index).occupied = true)
      (slots : ∀ j, q.slot j = if index = j then
        { storage := none, next := p.freeHead, occupied := false } else p.slot j)
      (stats : q.stats =
        { p.stats with
          inUse := SizeT.decrement p.stats.inUse
          successfulReleases := SizeT.increment p.stats.successfulReleases }) :
      Did layout p q (.destroy (layout.address index)) (.destroyed .released)

theorem destroy_stats (layout : Layout) {p : FixedObjectPool α capacity} {index : Nat}
    (bound : index < capacity) (busy : (p.slot index).occupied = true) :
    (p.destroy layout (layout.address index)).1.stats =
      { p.stats with
        inUse := SizeT.decrement p.stats.inUse
        successfulReleases := SizeT.increment p.stats.successfulReleases } := by
  have taken : ¬ (p.slot index).occupied = false := by simp [busy]
  simp only [destroy, findSlot_address layout bound, if_neg (Nat.ne_of_lt bound), if_neg taken]

theorem WellLinked.perform_did {p : FixedObjectPool α capacity} (h : p.WellLinked)
    (layout : Layout) (call : Call ε α) :
    Did layout p (p.perform layout call).1 call (p.perform layout call).2 := by
  cases call with
  | tryCreate construct =>
    by_cases none : p.freeHead = capacity
    · simp only [perform, tryCreate_exhausted layout none]
      exact .exhausted rfl
    · cases construct with
      | error thrown =>
        simp only [perform, tryCreate_thrown layout none]
        exact .thrown rfl
      | ok object =>
        have stats := tryCreate_stats layout (ε := ε) none object
        obtain ⟨q, created, -, slots⟩ := h.tryCreate_ok (ε := ε) layout none object
        obtain ⟨bound, free⟩ := h.head_free none
        rw [created] at stats
        simp only [perform, created]
        exact .created bound free slots stats
  | destroy object =>
    obtain ⟨i, bound, rfl, busy⟩ | ⟨i, bound, rfl, free⟩ | foreign := pointer_cases layout p object
    · have stats := destroy_stats layout bound busy
      obtain ⟨q, released, -, slots⟩ := destroy_occupied layout bound busy
      rw [released] at stats
      simp only [perform, released]
      exact .released bound busy slots stats
    · simp only [perform, destroy_free layout bound free]
      exact .refused (by decide) rfl
    · simp only [perform, destroy_foreign layout foreign]
      exact .refused (by decide) rfl

/- What the answers say about the calls. -/
def Answer.allocated : Answer ε → Bool
  | .created (.ok handle) => handle.pool
  | _ => false

def Answer.exhausted : Answer ε → Bool
  | .created (.ok handle) => !handle.pool
  | _ => false

def Answer.released : Answer ε → Bool
  | .destroyed result => result = .released
  | _ => false

def Answer.refused : Answer ε → Bool
  | .destroyed result => result ≠ .released
  | _ => false

def occupiedSlots (p : FixedObjectPool α capacity) : Nat :=
  (List.range capacity).countP fun i => (p.slot i).occupied

theorem occupiedSlots_le (p : FixedObjectPool α capacity) : p.occupiedSlots ≤ capacity := by
  have bound := List.countP_le_length (p := fun i => (p.slot i).occupied)
    (l := List.range capacity)
  rwa [List.length_range] at bound

/-- Rewriting one slot moves the number of occupied ones by its own flag. -/
theorem occupiedSlots_write {p q : FixedObjectPool α capacity} {index : Nat} {value : Slot α}
    (bound : index < capacity) (slots : ∀ j, q.slot j = if index = j then value else p.slot j) :
    q.occupiedSlots + (p.slot index).occupied.toNat = p.occupiedSlots + value.occupied.toNat := by
  have here : (q.slot index).occupied = value.occupied := by rw [slots index, if_pos rfl]
  rw [← here]
  apply List.countP_range_update bound
  intro j other
  rw [slots j, if_neg other]

theorem WellLinked.occupiedSlots_full {p : FixedObjectPool α capacity} (h : p.WellLinked) :
    p.occupiedSlots = capacity ↔ p.freeHead = capacity := by
  have all := List.countP_eq_length (p := fun i => (p.slot i).occupied) (l := List.range capacity)
  rw [List.length_range] at all
  rw [occupiedSlots, all, h.exhausted_iff]
  simp only [List.mem_range]

/-- An allocation is answered with an empty handle exactly if every slot is occupied. -/
theorem WellLinked.exhausted_answer {p : FixedObjectPool α capacity} (h : p.WellLinked)
    (layout : Layout) (construct : Except ε α) :
    (p.perform layout (.tryCreate construct)).2.exhausted = true ↔ p.occupiedSlots = capacity := by
  rw [h.occupiedSlots_full]
  by_cases none : p.freeHead = capacity
  · simp only [perform, tryCreate_exhausted layout none]
    exact iff_of_true rfl none
  · refine iff_of_false ?_ none
    cases construct with
    | error thrown =>
      simp only [perform, tryCreate_thrown layout none]
      exact Bool.false_ne_true
    | ok object =>
      simp only [perform]
      rw [tryCreate_taken layout none]
      exact Bool.false_ne_true

/-- The counters of a pool after the calls with the given answers. -/
structure Counted (p : FixedObjectPool α capacity) (answers : List (Answer ε)) : Prop where
  inUse : p.stats.inUse = p.occupiedSlots
  balance : answers.countP Answer.allocated = p.occupiedSlots + answers.countP Answer.released
  allocations : p.stats.successfulAllocations = answers.countP Answer.allocated % 2 ^ 64
  releases : p.stats.successfulReleases = answers.countP Answer.released % 2 ^ 64
  failures : p.stats.allocationFailures = answers.countP Answer.exhausted % 2 ^ 64
  invalid : p.stats.invalidReleases = answers.countP Answer.refused % 2 ^ 64

section Counting

variable {layout : Layout} {p q : FixedObjectPool α capacity} {answers : List (Answer ε)}
  {call : Call ε α} {answer : Answer ε}

theorem counted_empty : Counted (empty capacity : FixedObjectPool α capacity)
    ([] : List (Answer ε)) := by
  have none : (empty capacity : FixedObjectPool α capacity).occupiedSlots = 0 := by
    rw [occupiedSlots, List.countP_eq_zero]
    intro i member
    rw [slot_empty i (List.mem_range.mp member)]
    exact Bool.false_ne_true
  exact ⟨none.symm, by rw [none]; rfl, rfl, rfl, rfl, rfl⟩

/-- An allocation finds `inUse` below the capacity and a release finds it above zero, so
neither wraps. -/
theorem Did.inUse (did : Did layout p q call answer) (small : capacity < 2 ^ 64)
    (exact : p.stats.inUse = p.occupiedSlots) :
    q.stats.inUse = q.occupiedSlots ∧
      q.occupiedSlots + answer.released.toNat = p.occupiedSlots + answer.allocated.toNat := by
  cases did with
  | exhausted same | thrown same =>
    subst same
    exact ⟨exact, rfl⟩
  | @refused object result other same =>
    subst same
    exact ⟨exact, by simp [Answer.released, Answer.allocated, other, occupiedSlots, slot]⟩
  | created bound free slots stats =>
    have moved := occupiedSlots_write bound slots
    have full := q.occupiedSlots_le
    rw [free] at moved
    refine ⟨?_, moved⟩
    have next : q.occupiedSlots = p.occupiedSlots + 1 := moved
    rw [stats, next, ← exact]
    exact Nat.mod_eq_of_lt (by omega)
  | released bound busy slots stats =>
    have moved := occupiedSlots_write bound slots
    have full := p.occupiedSlots_le
    rw [busy] at moved
    refine ⟨?_, moved⟩
    have last : p.occupiedSlots = q.occupiedSlots + 1 := moved.symm
    rw [stats]
    simp only [exact, last]
    exact SizeT.decrement_succ (by omega)

/-- Each of the other counters moves with the answers that it counts. -/
theorem Did.counters (did : Did layout p q call answer) :
    q.stats.successfulAllocations = (if answer.allocated then
      SizeT.increment p.stats.successfulAllocations else p.stats.successfulAllocations) ∧
    q.stats.successfulReleases = (if answer.released then
      SizeT.increment p.stats.successfulReleases else p.stats.successfulReleases) ∧
    q.stats.allocationFailures = (if answer.exhausted then
      SizeT.increment p.stats.allocationFailures else p.stats.allocationFailures) ∧
    q.stats.invalidReleases = (if answer.refused then
      SizeT.increment p.stats.invalidReleases else p.stats.invalidReleases) := by
  cases did with
  | exhausted same | thrown same =>
    subst same
    exact ⟨rfl, rfl, rfl, rfl⟩
  | refused other same =>
    subst same
    simp [Answer.allocated, Answer.released, Answer.exhausted, Answer.refused, other]
  | created bound free slots stats | released bound busy slots stats =>
    rw [stats]
    exact ⟨rfl, rfl, rfl, rfl⟩

theorem Counted.did (h : Counted p answers) (small : capacity < 2 ^ 64)
    (did : Did layout p q call answer) : Counted q (answers ++ [answer]) := by
  obtain ⟨inUse, moved⟩ := did.inUse small h.inUse
  obtain ⟨allocations, releases, failures, invalid⟩ := did.counters
  refine ⟨inUse, ?_, ?_, ?_, ?_, ?_⟩
  · have balance := h.balance
    rw [List.countP_concat, List.countP_concat]
    omega
  · rw [allocations]
    exact SizeT.increment_countP _ h.allocations answer
  · rw [releases]
    exact SizeT.increment_countP _ h.releases answer
  · rw [failures]
    exact SizeT.increment_countP _ h.failures answer
  · rw [invalid]
    exact SizeT.increment_countP _ h.invalid answer

/-- Only an allocation raises `inUse`, and it raises the watermark with it. -/
theorem Did.peak {level : List (Call ε α) → Nat} {calls : List (Call ε α)}
    (did : Did layout p q call answer) (peak : Watermark.Peak level calls p.stats.highWatermark)
    (before : level calls = p.stats.inUse) (after : level (calls ++ [call]) = q.stats.inUse)
    (small : capacity < 2 ^ 64) (exact : p.stats.inUse = p.occupiedSlots) :
    Watermark.Peak level (calls ++ [call]) q.stats.highWatermark := by
  have reached := before ▸ peak.above calls (List.prefix_refl _)
  obtain ⟨next, moved⟩ := did.inUse small exact
  cases did with
  | exhausted same | thrown same | refused other same =>
    subst same
    exact peak.keep (after.trans_le reached)
  | created bound free slots stats =>
    rw [stats] at after ⊢
    exact peak.raise _ after
  | released bound busy slots stats =>
    have fewer : q.occupiedSlots + 1 = p.occupiedSlots := moved
    have mark : q.stats.highWatermark = p.stats.highWatermark := by rw [stats]
    rw [mark]
    exact peak.keep (by omega)

end Counting

/- `inUse` after the given calls. -/
def inUseAfter (layout : Layout) (capacity : Nat) (calls : List (Call ε α)) : Nat :=
  (Mealy.final (perform layout) (empty capacity : FixedObjectPool α capacity) calls).stats.inUse

theorem run_counted (layout : Layout) (small : capacity < 2 ^ 64) (calls : List (Call ε α)) :
    let p : FixedObjectPool α capacity := Mealy.final (perform layout) (empty capacity) calls
    Counted p (Mealy.outputs (perform layout) (empty capacity : FixedObjectPool α capacity) calls) ∧
      Watermark.Peak (inUseAfter layout capacity) calls p.stats.highWatermark := by
  refine Mealy.history_induction (perform layout) (P := fun calls p =>
    Counted p (Mealy.outputs (perform layout) (empty capacity : FixedObjectPool α capacity) calls) ∧
      Watermark.Peak (inUseAfter layout capacity) calls p.stats.highWatermark)
    ⟨counted_empty, Watermark.peak_nil _⟩ ?_ calls
  rintro calls p call ⟨counted, peak⟩ here
  have did := (here ▸ run_wellLinked layout calls : p.WellLinked).perform_did layout call
  refine ⟨?_, did.peak peak ?_ ?_ small counted.inUse⟩
  · rw [Mealy.outputs_append, here]
    exact counted.did small did
  · rw [inUseAfter, here]
  · rw [inUseAfter, Mealy.final_concat, here]

/-- For every capacity that a `size_t` can hold, every placement in memory and every history
of allocations and releases, with constructors that may throw and pointers that may be
anything. The next allocation would be counted as a failure exactly if all slots are taken. -/
theorem pool_statistics_exact (capacity : UInt64) (layout : Layout) (calls : List (Call ε α)) :
    let start : FixedObjectPool α capacity.toNat := empty capacity.toNat
    let stats := (Mealy.final (perform layout) start calls).stats
    let answers := Mealy.outputs (perform layout) start calls
    (stats.inUse = (Mealy.final (perform layout) start calls).occupiedSlots ∧
      stats.inUse ≤ capacity.toNat) ∧
    (answers.countP Answer.allocated = stats.inUse + answers.countP Answer.released ∧
      stats.successfulAllocations = answers.countP Answer.allocated % 2 ^ 64 ∧
      stats.successfulReleases = answers.countP Answer.released % 2 ^ 64 ∧
      stats.inUse = SizeT.subtract stats.successfulAllocations stats.successfulReleases) ∧
    Watermark.Peak (inUseAfter layout capacity.toNat) calls stats.highWatermark ∧
    (stats.allocationFailures = answers.countP Answer.exhausted % 2 ^ 64 ∧
      ∀ construct : Except ε α,
        (perform layout (Mealy.final (perform layout) start calls)
          (.tryCreate construct)).2.exhausted = true ↔ stats.inUse = capacity.toNat) ∧
    stats.invalidReleases = answers.countP Answer.refused % 2 ^ 64 := by
  intro start stats answers
  have small := capacity.toNat_lt
  obtain ⟨counted, peak⟩ := run_counted (α := α) layout small calls
  have full : stats.inUse ≤ capacity.toNat := by
    rw [counted.inUse]
    exact occupiedSlots_le _
  have balance : answers.countP Answer.allocated =
      stats.inUse + answers.countP Answer.released := by
    rw [counted.inUse]
    exact counted.balance
  have difference : stats.inUse =
      SizeT.subtract stats.successfulAllocations stats.successfulReleases := by
    rw [counted.allocations, counted.releases]
    exact (SizeT.subtract_mod (by omega) balance).symm
  have exhausted : ∀ construct : Except ε α,
      (perform layout (Mealy.final (perform layout) start calls)
        (.tryCreate construct)).2.exhausted = true ↔ stats.inUse = capacity.toNat := by
    intro construct
    rw [counted.inUse]
    exact (run_wellLinked layout calls).exhausted_answer layout construct
  exact ⟨⟨counted.inUse, full⟩, ⟨balance, counted.allocations, counted.releases, difference⟩, peak,
    ⟨counted.failures, exhausted⟩, counted.invalid⟩

end EdgeSentinel.FixedObjectPool
