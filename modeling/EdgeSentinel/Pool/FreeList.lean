import EdgeSentinel.Library.Links
import EdgeSentinel.Pool.Model

/-! The free list threaded through the slots. The invariant names the walk from
`freeHead`; acyclicity is then a fact about walks that end, not a field. -/
namespace EdgeSentinel.FixedObjectPool

variable {α ε : Type} {capacity : Nat}

def nextOf (p : FixedObjectPool α capacity) (index : Nat) : Nat := (p.slot index).next

/-- The slots on the walk from `freeHead` are exactly the free ones. -/
def FreePath (p : FixedObjectPool α capacity) (path : List Nat) : Prop :=
  Links.Visits p.nextOf capacity p.freeHead path ∧
    ∀ i, i ∈ path ↔ i < capacity ∧ (p.slot i).occupied = false

structure WellLinked (p : FixedObjectPool α capacity) : Prop where
  free : ∃ path, p.FreePath path
  detached : ∀ i < capacity, (p.slot i).occupied = true → (p.slot i).next = capacity
  live : ∀ i < capacity, (p.slot i).storage.isSome = (p.slot i).occupied

theorem range_visits {next : Nat → Nat} {capacity : Nat} (links : ∀ i < capacity, next i = i + 1)
    (count start : Nat) (total : start + count = capacity) :
    Links.Visits next capacity start (List.range' start count) := by
  induction count generalizing start with
  | zero =>
    have here : start = capacity := by omega
    subst here
    exact .done
  | succ count ih =>
    refine .hop (by omega) ?_
    rw [links start (by omega)]
    exact ih (start + 1) (by omega)

theorem empty_wellLinked : (empty capacity : FixedObjectPool α capacity).WellLinked where
  free := by
    refine ⟨List.range' 0 capacity, range_visits ?_ capacity 0 (by omega), ?_⟩
    · intro i bound
      rw [nextOf, slot_empty i bound]
    · intro i
      constructor
      · intro member
        have bound : i < capacity := by
          have := List.mem_range'_1.mp member
          omega
        exact ⟨bound, by rw [slot_empty i bound]⟩
      · intro free
        exact List.mem_range'_1.mpr ⟨Nat.zero_le i, by omega⟩
  detached i bound busy := by
    rw [slot_empty i bound] at busy
    contradiction
  live i bound := by rw [slot_empty i bound]; rfl

/-- A free slot exists exactly when the head of the free list is one. -/
theorem WellLinked.exhausted_iff {p : FixedObjectPool α capacity} (h : p.WellLinked) :
    p.freeHead = capacity ↔ ∀ i < capacity, (p.slot i).occupied = true := by
  obtain ⟨path, visits, members⟩ := h.free
  constructor
  · intro none i bound
    by_contra free
    have member := (members i).mpr ⟨bound, by simpa using free⟩
    rw [none] at visits
    rw [visits.from_stop] at member
    cases member
  · intro busy
    by_contra some
    obtain ⟨rest, eq, -⟩ := visits.uncons some
    have free := (members p.freeHead).mp (eq ▸ List.mem_cons_self)
    rw [busy _ free.1] at free
    exact absurd free.2 (by decide)

theorem WellLinked.head_free {p : FixedObjectPool α capacity} (h : p.WellLinked)
    (some : p.freeHead ≠ capacity) :
    p.freeHead < capacity ∧ (p.slot p.freeHead).occupied = false := by
  obtain ⟨path, visits, members⟩ := h.free
  obtain ⟨rest, eq, -⟩ := visits.uncons some
  exact (members p.freeHead).mp (eq ▸ List.mem_cons_self)

/-- Rewriting one slot keeps the fields that speak of single slots; only the
walk has to be found again. -/
theorem WellLinked.write {p q : FixedObjectPool α capacity} (h : p.WellLinked) {index : Nat}
    {value : Slot α} (slots : ∀ j, q.slot j = if index = j then value else p.slot j)
    (detached : value.occupied = true → value.next = capacity)
    (live : value.storage.isSome = value.occupied) (free : ∃ path, q.FreePath path) :
    q.WellLinked := by
  refine ⟨free, ?_, ?_⟩
  · intro i bound
    rw [slots i]
    split
    · exact detached
    · exact h.detached i bound
  · intro i bound
    rw [slots i]
    split
    · exact live
    · exact h.live i bound

/-- Taking the head of the free list leaves the walk behind it. -/
theorem WellLinked.take {p q : FixedObjectPool α capacity} (h : p.WellLinked)
    (some : p.freeHead ≠ capacity) {object : α} (head : q.freeHead = p.nextOf p.freeHead)
    (slots : ∀ j, q.slot j = if p.freeHead = j then
      { storage := .some object, next := capacity, occupied := true } else p.slot j) :
    q.WellLinked := by
  apply h.write slots (fun _ => rfl) rfl
  obtain ⟨path, visits, members⟩ := h.free
  obtain ⟨rest, rfl, tail⟩ := visits.uncons some
  have fresh : p.freeHead ∉ rest := (List.nodup_cons.mp visits.nodup).1
  refine ⟨rest, ?_, ?_⟩
  · rw [head]
    apply tail.congr
    intro i member
    have other : p.freeHead ≠ i := fun same => fresh (same ▸ member)
    exact congrArg Slot.next ((slots i).trans (if_neg other))
  · intro i
    rw [slots i]
    split
    · rename_i same
      subst same
      exact iff_of_false fresh (by simp)
    · rename_i other
      rw [← members i, List.mem_cons]
      exact ⟨.inr, fun member => member.resolve_left (Ne.symm other)⟩

/-- Returning an occupied slot puts it in front of the walk. -/
theorem WellLinked.give {p q : FixedObjectPool α capacity} (h : p.WellLinked) {index : Nat}
    (bound : index < capacity) (busy : (p.slot index).occupied = true) (head : q.freeHead = index)
    (slots : ∀ j, q.slot j = if index = j then
      { storage := none, next := p.freeHead, occupied := false } else p.slot j) :
    q.WellLinked := by
  apply h.write slots nofun rfl
  obtain ⟨path, visits, members⟩ := h.free
  have fresh : index ∉ path := by
    intro member
    have free := ((members index).mp member).2
    rw [busy] at free
    contradiction
  refine ⟨index :: path, ?_, ?_⟩
  · rw [head]
    refine .hop (Nat.ne_of_lt bound) ?_
    have link : q.nextOf index = p.freeHead :=
      congrArg Slot.next ((slots index).trans (if_pos rfl))
    rw [link]
    apply visits.congr
    intro i member
    have other : index ≠ i := fun same => fresh (same ▸ member)
    exact congrArg Slot.next ((slots i).trans (if_neg other))
  · intro i
    rw [slots i]
    split
    · rename_i same
      subst same
      exact iff_of_true List.mem_cons_self ⟨bound, rfl⟩
    · rename_i other
      rw [← members i, List.mem_cons]
      exact ⟨fun member => member.resolve_left (Ne.symm other), .inr⟩

/-- A pool that differs in its statistics only. -/
theorem WellLinked.restat {p : FixedObjectPool α capacity} (h : p.WellLinked)
    (stats : PoolStats) : WellLinked { p with stats := stats } :=
  ⟨h.free, h.detached, h.live⟩

section Operations

variable (layout : Layout) {p : FixedObjectPool α capacity}

theorem tryCreate_exhausted (none : p.freeHead = capacity) (construct : Except ε α) :
    p.tryCreate layout construct =
      ({ p with stats :=
        { p.stats with allocationFailures := SizeT.increment p.stats.allocationFailures } },
        .ok {}) :=
  if_pos none

theorem tryCreate_thrown (some : p.freeHead ≠ capacity) (thrown : ε) :
    p.tryCreate layout (.error thrown : Except ε α) = (p, .error thrown) :=
  if_neg some

/-- A successful allocation occupies the slot at the head of the free list. -/
theorem WellLinked.tryCreate_ok (h : p.WellLinked) (some : p.freeHead ≠ capacity) (object : α) :
    ∃ q : FixedObjectPool α capacity,
      p.tryCreate layout (.ok object : Except ε α) =
        (q, .ok { pool := true, object := layout.address p.freeHead }) ∧
      q.freeHead = p.nextOf p.freeHead ∧
      ∀ j, q.slot j = if p.freeHead = j then
        { storage := .some object, next := capacity, occupied := true } else p.slot j := by
  refine ⟨_, if_neg some, rfl, ?_⟩
  exact slot_writeSlot p p.freeHead _ (h.head_free some).1

theorem tryCreate_stats (some : p.freeHead ≠ capacity) (object : α) :
    (p.tryCreate layout (.ok object : Except ε α)).1.stats =
      { p.stats with
        inUse := SizeT.increment p.stats.inUse
        successfulAllocations := SizeT.increment p.stats.successfulAllocations
        highWatermark := if SizeT.increment p.stats.inUse > p.stats.highWatermark then
          SizeT.increment p.stats.inUse else p.stats.highWatermark } := by
  rw [tryCreate, if_neg some]

theorem tryCreate_taken (some : p.freeHead ≠ capacity) (object : α) :
    p.tryCreate layout (.ok object : Except ε α) =
      ((p.tryCreate layout (.ok object : Except ε α)).1,
        .ok { pool := true, object := layout.address p.freeHead }) := by
  rw [tryCreate, if_neg some]

theorem tryCreate_handle (some : p.freeHead ≠ capacity) {object : α}
    {q : FixedObjectPool α capacity} {handle : Handle}
    (created : p.tryCreate layout (.ok object : Except ε α) = (q, .ok handle)) :
    handle.object ≠ 0 := by
  rw [tryCreate_taken layout some object] at created
  cases created
  exact address_ne_null layout p.freeHead

theorem destroy_foreign {object : Nat} (foreign : ∀ i < capacity, object ≠ layout.address i) :
    p.destroy layout object =
      ({ p with stats :=
        { p.stats with invalidReleases := SizeT.increment p.stats.invalidReleases } },
        .foreignPointer) :=
  if_pos (findSlot_foreign layout foreign)

theorem destroy_free {index : Nat} (bound : index < capacity)
    (free : (p.slot index).occupied = false) :
    p.destroy layout (layout.address index) =
      ({ p with stats :=
        { p.stats with invalidReleases := SizeT.increment p.stats.invalidReleases } },
        .doubleRelease) := by
  simp only [destroy, findSlot_address layout bound, if_neg (Nat.ne_of_lt bound), if_pos free]

theorem destroy_occupied {index : Nat} (bound : index < capacity)
    (busy : (p.slot index).occupied = true) :
    ∃ q : FixedObjectPool α capacity,
      p.destroy layout (layout.address index) = (q, .released) ∧ q.freeHead = index ∧
      ∀ j, q.slot j = if index = j then
        { storage := none, next := p.freeHead, occupied := false } else p.slot j := by
  have taken : ¬ (p.slot index).occupied = false := by simp [busy]
  simp only [destroy, findSlot_address layout bound, if_neg (Nat.ne_of_lt bound), if_neg taken]
  exact ⟨_, rfl, rfl, slot_writeSlot p index _ bound⟩

/-- Every pointer is the address of an occupied slot, of a free one, or foreign. -/
theorem pointer_cases (p : FixedObjectPool α capacity) (object : Nat) :
    (∃ i < capacity, object = layout.address i ∧ (p.slot i).occupied = true) ∨
    (∃ i < capacity, object = layout.address i ∧ (p.slot i).occupied = false) ∨
    ∀ i < capacity, object ≠ layout.address i := by
  by_cases found : ∃ i < capacity, object = layout.address i
  · obtain ⟨i, bound, eq⟩ := found
    cases busy : (p.slot i).occupied with
    | true => exact .inl ⟨i, bound, eq, busy⟩
    | false => exact .inr (.inl ⟨i, bound, eq, busy⟩)
  · exact .inr (.inr fun i bound eq => found ⟨i, bound, eq⟩)

theorem destroy_allocationFailures (object : Nat) :
    (p.destroy layout object).1.stats.allocationFailures = p.stats.allocationFailures := by
  obtain ⟨i, bound, rfl, busy⟩ | ⟨i, bound, rfl, free⟩ | foreign := pointer_cases layout p object
  · have taken : ¬ (p.slot i).occupied = false := by simp [busy]
    simp only [destroy, findSlot_address layout bound, if_neg (Nat.ne_of_lt bound), if_neg taken]
  · rw [destroy_free layout bound free]
  · rw [destroy_foreign layout foreign]

theorem reset_allocationFailures (handle : Handle) :
    (p.reset layout handle).stats.allocationFailures = p.stats.allocationFailures := by
  unfold reset
  split
  · exact destroy_allocationFailures layout handle.object
  · rfl

theorem WellLinked.tryCreate (h : p.WellLinked) (construct : Except ε α) :
    (p.tryCreate layout construct).1.WellLinked := by
  by_cases none : p.freeHead = capacity
  · rw [tryCreate_exhausted layout none]
    exact h.restat _
  · cases construct with
    | error thrown =>
      rw [tryCreate_thrown layout none]
      exact h
    | ok object =>
      obtain ⟨q, eq, head, slots⟩ := h.tryCreate_ok (ε := ε) layout none object
      rw [eq]
      exact h.take none head slots

theorem WellLinked.destroy (h : p.WellLinked) (object : Nat) :
    (p.destroy layout object).1.WellLinked := by
  obtain ⟨i, bound, rfl, busy⟩ | ⟨i, bound, rfl, free⟩ | foreign := pointer_cases layout p object
  · obtain ⟨q, eq, head, slots⟩ := destroy_occupied layout bound busy
    rw [eq]
    exact h.give bound busy head slots
  · rw [destroy_free layout bound free]
    exact h.restat _
  · rw [destroy_foreign layout foreign]
    exact h.restat _

end Operations

theorem run_wellLinked (layout : Layout) (calls : List (Call ε α)) :
    (Mealy.final (perform layout) (empty capacity) calls).WellLinked := by
  apply Mealy.invariant (perform layout) (P := WellLinked) empty_wellLinked
  intro p call h
  cases call with
  | tryCreate construct => exact h.tryCreate layout construct
  | destroy object => exact h.destroy layout object

/-- What the operations answer in a well-linked pool, and what they leave alone. -/
structure Contract (layout : Layout) (p : FixedObjectPool α capacity) : Prop where
  emptyHandle : ∀ construct : Except ε α,
    (p.tryCreate layout construct).2 = .ok {} ↔ ∀ i < capacity, (p.slot i).occupied = true
  handsOut : ∀ object : α, (∃ i < capacity, (p.slot i).occupied = false) →
    ∃ i < capacity, (p.slot i).occupied = false ∧ (p.slot i).storage = none ∧
      (p.tryCreate layout (.ok object : Except ε α)).2 =
        .ok { pool := true, object := layout.address i } ∧
      ∀ j, (p.tryCreate layout (.ok object : Except ε α)).1.slot j =
        if i = j then { storage := some object, next := capacity, occupied := true } else p.slot j
  thrown : ∀ thrown : ε, (∃ i < capacity, (p.slot i).occupied = false) →
    p.tryCreate layout (.error thrown : Except ε α) = (p, .error thrown)
  released : ∀ object, (p.destroy layout object).2 = .released ↔
    ∃ i < capacity, object = layout.address i ∧ (p.slot i).occupied = true
  doubleRelease : ∀ object, (p.destroy layout object).2 = .doubleRelease ↔
    ∃ i < capacity, object = layout.address i ∧ (p.slot i).occupied = false
  foreignPointer : ∀ object, (p.destroy layout object).2 = .foreignPointer ↔
    ∀ i < capacity, object ≠ layout.address i
  rejected : ∀ object, (p.destroy layout object).2 ≠ .released →
    (p.destroy layout object).1 =
      { p with
        stats := { p.stats with invalidReleases := SizeT.increment p.stats.invalidReleases } }

theorem WellLinked.has_free_iff {p : FixedObjectPool α capacity} (h : p.WellLinked) :
    p.freeHead ≠ capacity ↔ ∃ i < capacity, (p.slot i).occupied = false := by
  rw [Ne, h.exhausted_iff]
  simp

/-- The three answers of `destroy` exclude each other as the three kinds of
pointer do, because two slots never share an address. -/
theorem destroy_result (layout : Layout) (p : FixedObjectPool α capacity) (object : Nat) :
    ((p.destroy layout object).2 = .released ↔
      ∃ i < capacity, object = layout.address i ∧ (p.slot i).occupied = true) ∧
    ((p.destroy layout object).2 = .doubleRelease ↔
      ∃ i < capacity, object = layout.address i ∧ (p.slot i).occupied = false) ∧
    ((p.destroy layout object).2 = .foreignPointer ↔
      ∀ i < capacity, object ≠ layout.address i) := by
  obtain ⟨i, bound, rfl, busy⟩ | ⟨i, bound, rfl, free⟩ | foreign := pointer_cases layout p object
  · obtain ⟨q, eq, -⟩ := destroy_occupied layout bound busy
    rw [eq]
    refine ⟨iff_of_true rfl ⟨i, bound, rfl, busy⟩, iff_of_false nofun ?_, iff_of_false nofun ?_⟩
    · rintro ⟨j, -, same, free⟩
      rw [← address_injective layout same, busy] at free
      contradiction
    · exact fun foreign => foreign i bound rfl
  · rw [destroy_free layout bound free]
    refine ⟨iff_of_false nofun ?_, iff_of_true rfl ⟨i, bound, rfl, free⟩, iff_of_false nofun ?_⟩
    · rintro ⟨j, -, same, busy⟩
      rw [← address_injective layout same, free] at busy
      contradiction
    · exact fun foreign => foreign i bound rfl
  · rw [destroy_foreign layout foreign]
    refine ⟨iff_of_false nofun ?_, iff_of_false nofun ?_, iff_of_true rfl foreign⟩
    · rintro ⟨j, bound, same, -⟩
      exact foreign j bound same
    · rintro ⟨j, bound, same, -⟩
      exact foreign j bound same

theorem WellLinked.contract {p : FixedObjectPool α capacity} (h : p.WellLinked)
    (layout : Layout) : Contract (ε := ε) layout p where
  emptyHandle construct := by
    rw [← h.exhausted_iff]
    constructor
    · intro empty
      by_contra some
      cases construct with
      | error thrown =>
        rw [tryCreate_thrown layout some] at empty
        cases empty
      | ok object =>
        obtain ⟨q, eq, -, -⟩ := h.tryCreate_ok (ε := ε) layout some object
        rw [eq] at empty
        cases empty
    · intro none
      rw [tryCreate_exhausted layout none]
  handsOut object free := by
    have some := h.has_free_iff.mpr free
    obtain ⟨q, eq, -, slots⟩ := h.tryCreate_ok (ε := ε) layout some object
    have head := h.head_free some
    have dead : (p.slot p.freeHead).storage = none := by
      have live := h.live p.freeHead head.1
      rw [head.2] at live
      simpa using live
    exact ⟨p.freeHead, head.1, head.2, dead, by rw [eq], by rw [eq]; exact slots⟩
  thrown thrown free := tryCreate_thrown layout (h.has_free_iff.mpr free) thrown
  released object := (destroy_result layout p object).1
  doubleRelease object := (destroy_result layout p object).2.1
  foreignPointer object := (destroy_result layout p object).2.2
  rejected object refused := by
    obtain ⟨i, bound, rfl, busy⟩ | ⟨i, bound, rfl, free⟩ | foreign := pointer_cases layout p object
    · obtain ⟨q, eq, -⟩ := destroy_occupied layout bound busy
      rw [eq] at refused
      contradiction
    · rw [destroy_free layout bound free]
    · rw [destroy_foreign layout foreign]

/-- For every capacity, every placement in memory and every history of
allocations and releases, with constructors that may throw and pointers that may
be anything: the free list is an acyclic walk over exactly the free slots, the
occupied slots are unlinked, and the operations answer by occupation alone. -/
theorem pool_representation (capacity : Nat) (layout : Layout) (calls : List (Call ε α)) :
    let p : FixedObjectPool α capacity := Mealy.final (perform layout) (empty capacity) calls
    (∃ path, Links.Visits p.nextOf capacity p.freeHead path ∧ path.Nodup ∧
      ∀ i, i ∈ path ↔ i < capacity ∧ (p.slot i).occupied = false) ∧
    (∀ i < capacity, (p.slot i).occupied = true → (p.slot i).next = capacity) ∧
    Contract (ε := ε) layout p := by
  intro p
  have h : p.WellLinked := run_wellLinked layout calls
  obtain ⟨path, visits, members⟩ := h.free
  exact ⟨⟨path, visits, visits.nodup, members⟩, h.detached, h.contract layout⟩

end EdgeSentinel.FixedObjectPool
