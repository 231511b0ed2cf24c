import EdgeSentinel.Library.Counting
import EdgeSentinel.Library.Exec
import EdgeSentinel.Pool.FreeList

/-! Handles as a program uses them: variables that are made, moved from and to, reset,
released and destructed in any order, next to the pointers that `release` has given
out. Objects are known by the order of their construction. -/
namespace EdgeSentinel

/-- A program with one pool. A handle variable is `none` once its lifetime has ended;
`destroyed` lists the objects whose destructor has run. -/
structure HandleClient (capacity : Nat) where
  pool : FixedObjectPool Nat capacity := .empty capacity
  handles : List (Option Handle) := []
  released : List Nat := []
  constructed : Nat := 0
  destroyed : List Nat := []

inductive HandleOp where
  | declare
  | tryCreate (throws : Bool)
  | moveConstruct (source : Nat)
  | moveAssign (target source : Nat)
  | reset (target : Nat)
  | release (target : Nat)
  | destruct (target : Nat)
  | destroy (position : Nat)
  deriving DecidableEq, Repr

/- What `operator bool` looks at. -/
def Handle.pointer (handle : Handle) : Option Nat :=
  if handle.object = 0 then none else some handle.object

namespace HandleClient

variable {capacity : Nat}

def handle (c : HandleClient capacity) (index : Nat) : Option Handle := c.handles[index]?.join

section Operations

variable (layout : Layout)

/- `FixedObjectPool::destroy` with the destructor that it runs. -/
def destroyObject (c : HandleClient capacity) (object : Nat) : HandleClient capacity :=
  let (pool, result) := c.pool.destroy layout object
  let dying := (c.pool.slot (FixedObjectPool.findSlot layout capacity object)).storage
  { c with
    pool := pool
    destroyed := if result = .released then c.destroyed ++ dying.toList else c.destroyed }

/- `Handle::reset`, up to the null pointers it leaves in the handle. -/
def resetHandle (c : HandleClient capacity) (handle : Handle) : HandleClient capacity :=
  if handle.object ≠ 0 ∧ handle.pool then c.destroyObject layout handle.object else c

def tryCreate (c : HandleClient capacity) (throws : Bool) : HandleClient capacity :=
  match c.pool.tryCreate layout (if throws then .error () else .ok c.constructed) with
  | (pool, .ok handle) =>
    { c with
      pool := pool
      handles := c.handles ++ [some handle]
      constructed := if handle.object = 0 then c.constructed else c.constructed + 1 }
  | (pool, .error _) => { c with pool := pool }

def moveAssign (c : HandleClient capacity) (target source : Nat) (old new : Handle) :
    HandleClient capacity :=
  if target = source then c
  else
    let c := c.resetHandle layout old
    { c with handles := (c.handles.set target (some new)).set source (some {}) }

/-- The operations; each needs the variables it names to be alive, and `destroy` takes
a pointer that `release` has returned and that was not destroyed before. -/
def step (c : HandleClient capacity) : HandleOp → Option (HandleClient capacity × Unit)
  | .declare => some ({ c with handles := c.handles ++ [some {}] }, ())
  | .tryCreate throws => some (c.tryCreate layout throws, ())
  | .moveConstruct source =>
    (c.handle source).map fun handle =>
      ({ c with handles := c.handles.set source (some {}) ++ [some handle] }, ())
  | .moveAssign target source =>
    (c.handle target).bind fun old => (c.handle source).map fun new =>
      (c.moveAssign layout target source old new, ())
  | .reset target =>
    (c.handle target).map fun handle =>
      let c := c.resetHandle layout handle
      ({ c with handles := c.handles.set target (some {}) }, ())
  | .release target =>
    (c.handle target).map fun handle =>
      ({ c with
        handles := c.handles.set target (some {})
        released := c.released ++ [handle.object] }, ())
  | .destruct target =>
    (c.handle target).map fun handle =>
      let c := c.resetHandle layout handle
      ({ c with handles := c.handles.set target none }, ())
  | .destroy position =>
    c.released[position]?.map fun object =>
      let c := c.destroyObject layout object
      ({ c with released := c.released.eraseIdx position }, ())

end Operations

/- What is alive in the pool, slot by slot. -/
def alive (p : FixedObjectPool Nat capacity) : List Nat :=
  (List.range capacity).filterMap fun index =>
    if (p.slot index).occupied then (p.slot index).storage else none

/- `~FixedObjectPool`. -/
def destroyPool (c : HandleClient capacity) : HandleClient capacity :=
  { c with destroyed := c.destroyed ++ alive c.pool }

/- The slots that the handle variables point to. -/
def held (handles : List (Option Handle)) : List Nat := handles.filterMap (·.bind Handle.pointer)

/- The slots that somebody owns, through a handle or through a released pointer. -/
def pointers (c : HandleClient capacity) : List Nat := held c.handles ++ c.released.filter (· ≠ 0)

/-- A handle has a pool exactly if it has an object. -/
def Paired (handles : List (Option Handle)) : Prop :=
  ∀ handle, some handle ∈ handles → (handle.pool = true ↔ handle.object ≠ 0)

/-- What one operation can do to the pool and to the pointers in circulation. -/
inductive Effect (layout : Layout) (c c' : HandleClient capacity) : HandleOp → Prop where
  | moves {op : HandleOp} (pool : c'.pool = c.pool) (constructed : c'.constructed = c.constructed)
      (destroyed : c'.destroyed = c.destroyed) (pointers : c'.pointers.Perm c.pointers) :
      Effect layout c c' op
  | fails {op : HandleOp} (pool : c'.pool = { c.pool with
        stats := { c.pool.stats with
          allocationFailures := SizeT.increment c.pool.stats.allocationFailures } })
      (constructed : c'.constructed = c.constructed) (destroyed : c'.destroyed = c.destroyed)
      (pointers : c'.pointers.Perm c.pointers) : Effect layout c c' op
  | creates {op : HandleOp} (free : c.pool.freeHead ≠ capacity)
      (pool : c'.pool = (c.pool.tryCreate layout (.ok c.constructed : Except Unit Nat)).1)
      (constructed : c'.constructed = c.constructed + 1) (destroyed : c'.destroyed = c.destroyed)
      (pointers : c'.pointers.Perm (layout.address c.pool.freeHead :: c.pointers)) :
      Effect layout c c' op
  | gives {op : HandleOp} {object : Nat} (pool : c'.pool = (c.destroyObject layout object).pool)
      (constructed : c'.constructed = c.constructed)
      (destroyed : c'.destroyed = (c.destroyObject layout object).destroyed)
      (pointers : c.pointers.Perm (object :: c'.pointers)) : Effect layout c c' op
  | mistakes {position : Nat} (null : c.released[position]? = some 0)
      (pool : c'.pool = (c.pool.destroy layout 0).1) (constructed : c'.constructed = c.constructed)
      (destroyed : c'.destroyed = c.destroyed) (pointers : c'.pointers.Perm c.pointers) :
      Effect layout c c' (.destroy position)

section Effects

variable {layout : Layout} {c c' : HandleClient capacity} {op : HandleOp} {index : Nat}
  {handle : Handle}

theorem mem_of_handle (here : c.handle index = some handle) : some handle ∈ c.handles := by
  rw [HandleClient.handle, Option.join_eq_some_iff] at here
  exact List.mem_of_getElem? here

theorem getElem?_of_handle (here : c.handle index = some handle) :
    c.handles[index]? = some (some handle) := Option.join_eq_some_iff.mp here

theorem held_append (handles : List (Option Handle)) (handle : Handle) :
    (held (handles ++ [some handle])).Perm (handle.pointer.toList ++ held handles) := by
  rw [held, List.filterMap_append, ← held]
  apply List.perm_append_comm.trans
  cases pointer : handle.pointer <;> simp [pointer]

/- A variable is overwritten. -/
theorem held_set {handles : List (Option Handle)} (here : handles[index]? = some (some handle))
    (value : Option Handle) :
    (handle.pointer.toList ++ held (handles.set index value)).Perm
      ((value.bind Handle.pointer).toList ++ held handles) :=
  List.perm_filterMap_set (·.bind Handle.pointer) here value

@[simp] theorem resetHandle_handles : (c.resetHandle layout handle).handles = c.handles := by
  unfold resetHandle
  split <;> rfl

/-- A variable gives up what it holds, if it holds anything. -/
theorem effect_reset (paired : handle.pool = true ↔ handle.object ≠ 0)
    {handles : List (Option Handle)}
    (given : (held c.handles).Perm (handle.pointer.toList ++ held handles)) :
    Effect layout c { c.resetHandle layout handle with handles := handles } op := by
  have all := given.append_right (c.released.filter (· ≠ 0))
  by_cases empty : handle.object = 0
  · have same : c.resetHandle layout handle = c := if_neg fun full => full.1 empty
    rw [Handle.pointer, if_pos empty] at all
    rw [same]
    exact .moves rfl rfl rfl all.symm
  · have destroys : c.resetHandle layout handle = c.destroyObject layout handle.object :=
      if_pos ⟨empty, paired.mpr empty⟩
    rw [Handle.pointer, if_neg empty] at all
    rw [destroys]
    exact .gives rfl rfl rfl all

theorem Paired.append {handles : List (Option Handle)} (paired : Paired handles)
    (fresh : handle.pool = true ↔ handle.object ≠ 0) : Paired (handles ++ [some handle]) := by
  intro other member
  rcases List.mem_append.mp member with old | new
  · exact paired other old
  · cases List.mem_singleton.mp new
    exact fresh

theorem Paired.set {handles : List (Option Handle)} (paired : Paired handles)
    {value : Option Handle} (fresh : ∀ handle, value = some handle →
      (handle.pool = true ↔ handle.object ≠ 0)) : Paired (handles.set index value) := by
  intro other member
  rcases List.mem_or_eq_of_mem_set member with old | new
  · exact paired other old
  · exact fresh other new.symm

theorem Paired.clear {handles : List (Option Handle)} (paired : Paired handles) :
    Paired (handles.set index (some {})) := by
  apply paired.set
  rintro handle ⟨⟩
  decide

theorem tryCreate_effect (paired : Paired c.handles) (throws : Bool) :
    Effect layout c (c.tryCreate layout throws) op ∧
      Paired (c.tryCreate layout throws).handles := by
  unfold tryCreate
  by_cases none : c.pool.freeHead = capacity
  · rw [FixedObjectPool.tryCreate_exhausted layout none]
    refine ⟨.fails rfl rfl rfl ?_, paired.append (by decide)⟩
    exact (held_append c.handles {}).append_right _
  · cases throws with
    | true =>
      rw [if_pos rfl, FixedObjectPool.tryCreate_thrown layout none]
      exact ⟨.moves rfl rfl rfl (.refl _), paired⟩
    | false =>
      have object := FixedObjectPool.address_ne_null layout c.pool.freeHead
      have taken := FixedObjectPool.tryCreate_taken layout (ε := Unit) none c.constructed
      rw [if_neg Bool.false_ne_true]
      rw [taken]
      have pointer : Handle.pointer ⟨true, layout.address c.pool.freeHead⟩ =
        some (layout.address c.pool.freeHead) := if_neg object
      refine ⟨.creates none rfl (if_neg object) rfl ?_, paired.append (iff_of_true rfl object)⟩
      have fresh := held_append c.handles ⟨true, layout.address c.pool.freeHead⟩
      rw [pointer] at fresh
      exact fresh.append_right _

theorem moveAssign_effect (paired : Paired c.handles) {target source : Nat} {old new : Handle}
    (here : c.handle target = some old) (there : c.handle source = some new) :
    Effect layout c (c.moveAssign layout target source old new) op ∧
      Paired (c.moveAssign layout target source old new).handles := by
  unfold moveAssign
  split
  · exact ⟨.moves rfl rfl rfl (.refl _), paired⟩
  · rename_i other
    dsimp only
    rw [resetHandle_handles]
    have still : (c.handles.set target (some new))[source]? = some (some new) := by
      rw [List.getElem?_set_ne other, getElem?_of_handle there]
    constructor
    · apply effect_reset (paired old (mem_of_handle here))
      -- the target's old pointer leaves, the new one only changes variables
      have overwritten := held_set (getElem?_of_handle here) (some new)
      have emptied := held_set still (some {})
      apply (List.perm_append_left_iff new.pointer.toList).mp
      apply overwritten.symm.trans
      apply (emptied.symm.append_left old.pointer.toList).trans
      exact List.perm_append_comm_assoc _ _ _
    · apply (paired.set ?_).clear
      rintro handle ⟨⟩
      exact paired new (mem_of_handle there)

theorem release_effect (here : c.handle index = some handle) :
    Effect layout c
      { c with
        handles := c.handles.set index (some {})
        released := c.released ++ [handle.object] } op := by
  refine .moves rfl rfl rfl ?_
  have emptied := held_set (getElem?_of_handle here) (some {})
  have out : [handle.object].filter (· ≠ 0) = handle.pointer.toList := by
    unfold Handle.pointer
    split <;> simp_all
  simp only [pointers, List.filter_append, out]
  rw [← List.append_assoc]
  apply List.perm_append_comm.trans
  rw [← List.append_assoc]
  exact emptied.append_right _

theorem destroy_effect {position object : Nat} (here : c.released[position]? = some object) :
    Effect layout c
      { c.destroyObject layout object with released := c.released.eraseIdx position }
      (.destroy position) := by
  obtain ⟨inside, value⟩ := List.getElem?_eq_some_iff.mp here
  have taken := (List.getElem_cons_eraseIdx_perm inside).filter (· ≠ 0)
  rw [value] at taken
  by_cases null : object = 0
  · subst null
    have foreign : ∀ i < capacity, 0 ≠ layout.address i :=
      fun i _ => (FixedObjectPool.address_ne_null layout i).symm
    refine .mistakes here rfl rfl ?_ (taken.append_left _)
    simp only [destroyObject, FixedObjectPool.destroy_foreign layout foreign]
    exact if_neg nofun
  · refine .gives rfl rfl rfl ?_
    rw [List.filter_cons_of_pos (by simpa using null)] at taken
    exact (taken.symm.append_left _).trans List.perm_middle

/-- Every operation has one of the effects, and no handle is left with half its members. -/
theorem step_effect {u : Unit} (paired : Paired c.handles)
    (moved : c.step layout op = some (c', u)) : Effect layout c c' op ∧ Paired c'.handles := by
  cases op with
  | declare =>
    cases moved
    refine ⟨.moves rfl rfl rfl ?_, paired.append (by decide)⟩
    exact (held_append c.handles {}).append_right _
  | tryCreate throws =>
    cases moved
    exact tryCreate_effect paired throws
  | moveConstruct source =>
    obtain ⟨handle, here, same⟩ := Option.map_eq_some_iff.mp moved
    cases same
    refine ⟨.moves rfl rfl rfl ?_, paired.clear.append (paired handle (mem_of_handle here))⟩
    have emptied := held_set (getElem?_of_handle here) (some {})
    exact ((held_append _ handle).trans emptied).append_right _
  | moveAssign target source =>
    obtain ⟨old, here, rest⟩ := Option.bind_eq_some_iff.mp moved
    obtain ⟨new, there, same⟩ := Option.map_eq_some_iff.mp rest
    cases same
    exact moveAssign_effect paired here there
  | reset target =>
    obtain ⟨handle, here, same⟩ := Option.map_eq_some_iff.mp moved
    cases same
    rw [resetHandle_handles]
    refine ⟨effect_reset (paired handle (mem_of_handle here)) ?_, paired.clear⟩
    exact (held_set (getElem?_of_handle here) (some {})).symm
  | release target =>
    obtain ⟨handle, here, same⟩ := Option.map_eq_some_iff.mp moved
    cases same
    exact ⟨release_effect here, paired.clear⟩
  | destruct target =>
    obtain ⟨handle, here, same⟩ := Option.map_eq_some_iff.mp moved
    cases same
    rw [resetHandle_handles]
    refine ⟨effect_reset (paired handle (mem_of_handle here)) ?_, paired.set nofun⟩
    exact (held_set (getElem?_of_handle here) none).symm
  | destroy position =>
    obtain ⟨object, here, same⟩ := Option.map_eq_some_iff.mp moved
    cases same
    exact ⟨destroy_effect here, paired⟩

end Effects

end HandleClient

end EdgeSentinel
