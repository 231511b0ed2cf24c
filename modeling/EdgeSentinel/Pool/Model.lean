import EdgeSentinel.Library.Mealy
import EdgeSentinel.Library.SizeT

/-! The fixed object pool. Slots live in one array and are addressed by
numbers, so a pointer handed to `destroy` may be anything at all. Every
operation holds the pool mutex throughout and is one step here. -/
namespace EdgeSentinel

inductive PoolReleaseResult where
  | released
  | foreignPointer
  | doubleRelease
  deriving DecidableEq, Repr

structure PoolStats where
  inUse : Nat := 0
  highWatermark : Nat := 0
  successfulAllocations : Nat := 0
  successfulReleases : Nat := 0
  allocationFailures : Nat := 0
  invalidReleases : Nat := 0
  deriving DecidableEq, Repr

/- `storage` is `some` between `construct_at` and `destroy_at`. -/
structure Slot (α : Type) where
  storage : Option α := none
  next : Nat
  occupied : Bool := false
  deriving DecidableEq, Repr

/-- Where the pool lies in memory: the first object's address and the distance
between two slots. Address 0 is the null pointer. -/
structure Layout where
  base : Nat
  stride : Nat
  basePositive : 0 < base
  stridePositive : 0 < stride

/- `Slot::object()` of the slot with the given index. -/
def Layout.address (layout : Layout) (index : Nat) : Nat := layout.base + index * layout.stride

/- `pool` says whether `pool_` is set; there is one pool, so it carries no more. -/
structure Handle where
  pool : Bool := false
  object : Nat := 0
  deriving DecidableEq, Repr

structure FixedObjectPool (α : Type) (capacity : Nat) where
  slots : Vector (Slot α) capacity
  freeHead : Nat := 0
  stats : PoolStats := {}
  deriving DecidableEq, Repr

namespace FixedObjectPool

variable {α ε : Type} {capacity : Nat}

/- `kNoSlot` is `Capacity`, one past the last index. -/
def empty (capacity : Nat) : FixedObjectPool α capacity where
  slots :=
    (Vector.ofFn fun index : Fin capacity => { next := index.val + 1 }).setIfInBounds
      (capacity - 1) { next := capacity }

def slot (p : FixedObjectPool α capacity) (index : Nat) : Slot α :=
  p.slots[index]?.getD { next := capacity }

def writeSlot (p : FixedObjectPool α capacity) (index : Nat) (value : Slot α) :
    FixedObjectPool α capacity :=
  { p with slots := p.slots.setIfInBounds index value }

def findSlot (layout : Layout) (capacity : Nat) (object : Nat) : Nat :=
  if object = 0 then capacity
  else ((List.range capacity).find? (fun index => layout.address index = object)).getD capacity

/-- The constructor's outcome is an argument: it runs only if a slot is free,
and an exception leaves before anything is written. -/
def tryCreate (layout : Layout) (p : FixedObjectPool α capacity) (construct : Except ε α) :
    FixedObjectPool α capacity × Except ε Handle :=
  if p.freeHead = capacity then
    ({ p with stats :=
      { p.stats with allocationFailures := SizeT.increment p.stats.allocationFailures } }, .ok {})
  else
    match construct with
    | .error thrown => (p, .error thrown)
    | .ok object =>
      let taken := p.writeSlot p.freeHead { storage := some object, next := capacity, occupied := true }
      let inUse := SizeT.increment p.stats.inUse
      ({ taken with
          freeHead := (p.slot p.freeHead).next
          stats :=
            { p.stats with
              inUse := inUse
              successfulAllocations := SizeT.increment p.stats.successfulAllocations
              highWatermark :=
                if inUse > p.stats.highWatermark then inUse else p.stats.highWatermark } },
        .ok { pool := true, object := layout.address p.freeHead })

def destroy (layout : Layout) (p : FixedObjectPool α capacity) (object : Nat) :
    FixedObjectPool α capacity × PoolReleaseResult :=
  let index := findSlot layout capacity object
  let rejected := { p with stats :=
    { p.stats with invalidReleases := SizeT.increment p.stats.invalidReleases } }
  if index = capacity then (rejected, .foreignPointer)
  else if (p.slot index).occupied = false then (rejected, .doubleRelease)
  else
    let freed := p.writeSlot index { storage := none, next := p.freeHead, occupied := false }
    ({ freed with
        freeHead := index
        stats :=
          { p.stats with
            inUse := SizeT.decrement p.stats.inUse
            successfulReleases := SizeT.increment p.stats.successfulReleases } },
      .released)

/- `Handle::reset`: an empty handle has nothing to give back. -/
def reset (layout : Layout) (p : FixedObjectPool α capacity) (handle : Handle) :
    FixedObjectPool α capacity :=
  if handle.object ≠ 0 ∧ handle.pool then (p.destroy layout handle.object).1 else p

/- The object a handle points to, `none` once its lifetime has ended. -/
def deref (layout : Layout) (p : FixedObjectPool α capacity) (handle : Handle) : Option α :=
  (p.slot (findSlot layout capacity handle.object)).storage

/- A client of the pool: any constructor outcome, any pointer. -/
inductive Call (ε α : Type) where
  | tryCreate (construct : Except ε α)
  | destroy (object : Nat)

inductive Answer (ε : Type) where
  | created (result : Except ε Handle)
  | destroyed (result : PoolReleaseResult)

def perform (layout : Layout) (p : FixedObjectPool α capacity) :
    Call ε α → FixedObjectPool α capacity × Answer ε
  | .tryCreate construct =>
    let (next, result) := p.tryCreate layout construct
    (next, .created result)
  | .destroy object =>
    let (next, result) := p.destroy layout object
    (next, .destroyed result)

section Slots

variable (p : FixedObjectPool α capacity) (index : Nat) (value : Slot α)

theorem slot_writeSlot (bound : index < capacity) (j : Nat) :
    (p.writeSlot index value).slot j = if index = j then value else p.slot j := by
  simp only [slot, writeSlot, Vector.getElem?_setIfInBounds, bound]
  split <;> rfl

theorem slot_empty (bound : index < capacity) :
    ((empty capacity : FixedObjectPool α capacity).slot index) = { next := index + 1 } := by
  simp only [slot, empty, Vector.getElem?_setIfInBounds, Vector.getElem?_ofFn, bound, dif_pos]
  by_cases last : capacity - 1 = index
  · have next : capacity = index + 1 := by omega
    simp [next]
  · simp [last]

end Slots

section FindSlot

variable (layout : Layout)

theorem address_ne_null (index : Nat) : layout.address index ≠ 0 := by
  have := layout.basePositive
  unfold Layout.address
  omega

theorem address_injective {i j : Nat} (same : layout.address i = layout.address j) : i = j := by
  unfold Layout.address at same
  exact Nat.eq_of_mul_eq_mul_right layout.stridePositive (by omega)

/-- The search answers with the slot that has the address, and otherwise with
`kNoSlot`. -/
theorem findSlot_address {index : Nat} (bound : index < capacity) :
    findSlot layout capacity (layout.address index) = index := by
  unfold findSlot
  rw [if_neg (address_ne_null layout index)]
  cases found : (List.range capacity).find? (fun i => layout.address i = layout.address index) with
  | none =>
    have missing := List.find?_eq_none.mp found index (List.mem_range.mpr bound)
    simp at missing
  | some i =>
    have hit := List.find?_some found
    exact address_injective layout (of_decide_eq_true hit)

theorem findSlot_foreign {object : Nat} (foreign : ∀ i < capacity, object ≠ layout.address i) :
    findSlot layout capacity object = capacity := by
  unfold findSlot
  split
  · rfl
  · have missing : (List.range capacity).find? (fun i => layout.address i = object) = none := by
      rw [List.find?_eq_none]
      intro i member
      simpa using (foreign i (List.mem_range.mp member)).symm
    rw [missing, Option.getD_none]

end FindSlot

end FixedObjectPool

end EdgeSentinel
