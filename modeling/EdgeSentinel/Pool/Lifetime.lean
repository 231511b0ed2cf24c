import EdgeSentinel.Pool.Handle
import EdgeSentinel.Pool.Ownership

/-! Linear ownership through handles. The invariant lists the owners, each with the
object it owns; what a handle points to, what the slots hold and which destructors
have run are all read off that one list. -/
namespace EdgeSentinel.HandleClient

open FixedObjectPool (Holds)

variable {capacity : Nat} {layout : Layout} {c c' : HandleClient capacity} {op : HandleOp}
  {owned : List (Handle × Nat)}

structure Owned (layout : Layout) (c : HandleClient capacity) (owned : List (Handle × Nat)) :
    Prop where
  paired : Paired c.handles
  circulating : (owned.map fun entry => entry.1.object).Perm c.pointers
  holds : Holds id layout c.pool owned
  once : (c.destroyed ++ owned.map Prod.snd).Perm (List.range c.constructed)

theorem owned_start : Owned layout ({} : HandleClient capacity) [] where
  paired := nofun
  circulating := .nil
  holds := FixedObjectPool.holds_empty
  once := .nil

/-- Destroying through an owner's pointer ends that ownership and that object. -/
theorem destroyObject_owned {handle : Handle} {known : Nat}
    (h : Holds id layout c.pool ((handle, known) :: owned)) :
    (c.destroyObject layout handle.object).pool = c.pool.reset layout handle ∧
      (c.destroyObject layout handle.object).destroyed = c.destroyed ++ [known] := by
  obtain ⟨pool, i, bound, address, busy, stored⟩ := h.live _ List.mem_cons_self
  simp only [Option.map_id_fun, id] at pool address stored
  obtain ⟨q, released, -⟩ := FixedObjectPool.destroy_occupied layout bound busy
  have full := FixedObjectPool.address_ne_null layout i
  simp only [destroyObject, FixedObjectPool.reset, address, pool, full, ne_eq, not_false_eq_true,
    and_self, if_true, released, FixedObjectPool.findSlot_address layout bound, stored,
    Option.toList_some]

/-- The owner of a pointer in circulation, set apart from the other owners. -/
theorem Owned.owner (h : Owned layout c owned) {object : Nat} {rest : List Nat}
    (given : c.pointers.Perm (object :: rest)) :
    ∃ (handle : Handle) (known : Nat) (others : List (Handle × Nat)),
      handle.object = object ∧ owned.Perm ((handle, known) :: others) ∧
      (others.map fun entry => entry.1.object).Perm rest ∧
      Holds id layout c.pool ((handle, known) :: others) := by
  have member := (h.circulating.trans given).mem_iff.mpr List.mem_cons_self
  obtain ⟨⟨handle, known⟩, here, rfl⟩ := List.mem_map.mp member
  have apart := List.perm_cons_erase here
  refine ⟨handle, known, _, rfl, apart, ?_, h.holds.perm apart⟩
  exact ((apart.map _).symm.trans (h.circulating.trans given)).cons_inv

theorem Owned.effect (h : Owned layout c owned) (paired : Paired c'.handles)
    (done : Effect layout c c' op) : ∃ owned', Owned layout c' owned' := by
  cases done with
  | moves pool constructed destroyed pointers =>
    refine ⟨owned, paired, h.circulating.trans pointers.symm, ?_, ?_⟩
    · rw [pool]
      exact h.holds
    · rw [destroyed, constructed]
      exact h.once
  | fails pool constructed destroyed pointers =>
    refine ⟨owned, paired, h.circulating.trans pointers.symm, ?_, ?_⟩
    · rw [pool]
      exact h.holds.restat _
    · rw [destroyed, constructed]
      exact h.once
  | creates free pool constructed destroyed pointers =>
    obtain ⟨none, -⟩ | ⟨-, q, handle, created, -, fresh⟩ :=
      h.holds.tryCreate (ε := Unit) c.constructed
    · exact absurd none free
    · have taken := FixedObjectPool.tryCreate_taken layout (ε := Unit) free c.constructed
      rw [created] at taken pool
      cases taken
      refine ⟨(⟨true, layout.address c.pool.freeHead⟩, c.constructed) :: owned, paired, ?_, ?_, ?_⟩
      · exact (h.circulating.cons _).trans pointers.symm
      · rw [pool]
        exact fresh
      · rw [destroyed, constructed, List.range_succ]
        have last := (h.once.cons c.constructed).trans (List.perm_append_singleton _ _).symm
        exact List.perm_middle.trans last
  | gives pool constructed destroyed pointers =>
    obtain ⟨handle, known, others, rfl, apart, rest, here⟩ := h.owner pointers
    obtain ⟨pool', destroyed'⟩ := destroyObject_owned here
    refine ⟨others, paired, rest, ?_, ?_⟩
    · rw [pool, pool']
      exact here.reset
    · rw [destroyed, destroyed', constructed, List.append_assoc]
      exact ((apart.map Prod.snd).symm.append_left _).trans h.once
  | mistakes null pool constructed destroyed pointers =>
    have foreign : ∀ i < capacity, 0 ≠ layout.address i :=
      fun i _ => (FixedObjectPool.address_ne_null layout i).symm
    refine ⟨owned, paired, h.circulating.trans pointers.symm, ?_, ?_⟩
    · rw [pool, FixedObjectPool.destroy_foreign layout foreign]
      exact h.holds.restat _
    · rw [destroyed, constructed]
      exact h.once

theorem Owned.step {u : Unit} (h : Owned layout c owned) (moved : c.step layout op = some (c', u)) :
    ∃ owned', Owned layout c' owned' :=
  h.effect (step_effect h.paired moved).2 (step_effect h.paired moved).1

/- `destroy(nullptr)`, with a null pointer that `release` has returned. -/
def passesNull (c : HandleClient capacity) : HandleOp → Bool
  | .destroy position => c.released[position]? = some 0
  | _ => false

/-- Only the null pointer is ever rejected. -/
theorem Owned.valid {u : Unit} (h : Owned layout c owned)
    (moved : c.step layout op = some (c', u))
    (real : c.passesNull op = false) :
    c'.pool.stats.invalidReleases = c.pool.stats.invalidReleases := by
  cases (step_effect h.paired moved).1 with
  | moves pool => rw [pool]
  | fails pool => rw [pool]
  | creates free pool => rw [pool, FixedObjectPool.tryCreate_stats layout free]
  | gives pool constructed destroyed pointers =>
    obtain ⟨handle, known, others, rfl, apart, rest, here⟩ := h.owner pointers
    rw [pool, (destroyObject_owned here).1, here.reset_stats]
  | mistakes null => exact absurd null (of_decide_eq_false real)

/-- A destructor runs only as the owner of the object lets go of it. -/
theorem Owned.destroys {u : Unit} (h : Owned layout c owned)
    (moved : c.step layout op = some (c', u)) {object : Nat} (dead : object ∈ c'.destroyed) :
    object ∈ c.destroyed ∨ ∃ i < capacity, (c.pool.slot i).storage = some object ∧
      layout.address i ∈ c.pointers ∧ layout.address i ∉ c'.pointers := by
  cases (step_effect h.paired moved).1 with
  | moves pool constructed destroyed | fails pool constructed destroyed
  | creates free pool constructed destroyed | mistakes null pool constructed destroyed =>
    exact .inl (destroyed ▸ dead)
  | gives pool constructed destroyed pointers =>
    obtain ⟨handle, known, others, rfl, apart, rest, here⟩ := h.owner pointers
    rw [destroyed, (destroyObject_owned here).2] at dead
    rcases List.mem_append.mp dead with old | new
    · exact .inl old
    · cases List.mem_singleton.mp new
      obtain ⟨-, i, bound, address, -, stored⟩ := here.live _ List.mem_cons_self
      simp only [Option.map_id_fun, id] at address stored
      refine .inr ⟨i, bound, stored, ?_, ?_⟩
      · exact address ▸ pointers.mem_iff.mpr List.mem_cons_self
      · intro again
        rw [← address] at again
        exact (List.nodup_cons.mp here.distinct).1 (rest.mem_iff.mpr again)

section Linear

variable (layout) in
/- What the occupied slots hold, under the addresses that their owners know. -/
def residents (p : FixedObjectPool Nat capacity) : List (Handle × Nat) :=
  (List.range capacity).filterMap fun i =>
    if (p.slot i).occupied then
      (p.slot i).storage.map fun known => (⟨true, layout.address i⟩, known)
    else none

theorem mem_residents {p : FixedObjectPool Nat capacity} {handle : Handle} {known : Nat} :
    (handle, known) ∈ residents layout p ↔ ∃ i < capacity, handle = ⟨true, layout.address i⟩ ∧
      (p.slot i).occupied = true ∧ (p.slot i).storage = some known := by
  simp only [residents, List.mem_filterMap, List.mem_range, Option.ite_none_right_eq_some,
    Option.map_eq_some_iff, Prod.mk.injEq]
  constructor
  · rintro ⟨i, bound, busy, _, stored, rfl, rfl⟩
    exact ⟨i, bound, rfl, busy, stored⟩
  · rintro ⟨i, bound, rfl, busy, stored⟩
    exact ⟨i, bound, busy, known, stored, rfl, rfl⟩

theorem residents_snd (p : FixedObjectPool Nat capacity) :
    (residents layout p).map Prod.snd = alive p := by
  rw [residents, List.map_filterMap, alive]
  congr 1
  funext i
  split
  · simp [Function.comp_def]
  · rfl

theorem residents_nodup (p : FixedObjectPool Nat capacity) : (residents layout p).Nodup := by
  apply List.nodup_range.filterMap
  intro i j entry left right
  simp only [Option.mem_def, Option.ite_none_right_eq_some, Option.map_eq_some_iff] at left right
  obtain ⟨-, _, -, rfl⟩ := left
  obtain ⟨-, _, -, same⟩ := right
  have addresses := congrArg (fun entry => entry.1.object) same
  exact (FixedObjectPool.address_injective layout addresses).symm

/-- The owners are exactly the owners of the occupied slots. -/
theorem Owned.residents (h : Owned layout c owned) : owned.Perm (residents layout c.pool) := by
  apply (List.perm_ext_iff_of_nodup h.holds.distinct.of_map (residents_nodup c.pool)).mpr
  rintro ⟨⟨pool, object⟩, known⟩
  rw [mem_residents]
  constructor
  · intro member
    obtain ⟨valid, i, bound, address, busy, stored⟩ := h.holds.live _ member
    simp only [Option.map_id_fun, id] at valid address stored
    subst valid address
    exact ⟨i, bound, rfl, busy, stored⟩
  · rintro ⟨i, bound, same, busy, stored⟩
    obtain ⟨⟨⟨pool', object'⟩, known'⟩, member, address⟩ := h.holds.covers i bound busy
    obtain ⟨valid, j, -, address', -, stored'⟩ := h.holds.live _ member
    simp only [Option.map_id_fun, id] at valid address address' stored'
    cases FixedObjectPool.address_injective layout (address.symm.trans address')
    rw [stored] at stored'
    cases stored'
    cases same
    subst valid address
    exact member

theorem mem_held {object : Nat} (full : object ≠ 0) :
    object ∈ held c.handles ↔ ∃ index handle, c.handle index = some handle ∧
      handle.object = object := by
  simp only [held, List.mem_filterMap, Option.bind_eq_some_iff, Handle.pointer,
    Option.ite_none_left_eq_some, Option.some.injEq]
  constructor
  · rintro ⟨_, member, handle, rfl, -, same⟩
    obtain ⟨index, here⟩ := List.getElem?_of_mem member
    exact ⟨index, handle, Option.join_eq_some_iff.mpr here, same⟩
  · rintro ⟨index, handle, here, rfl⟩
    exact ⟨_, mem_of_handle here, handle, rfl, full, rfl⟩

/- The `index`-th variable refers to slot `i`. -/
def refers (layout : Layout) (c : HandleClient capacity) (index i : Nat) : Prop :=
  ∃ handle, c.handle index = some handle ∧ handle.object = layout.address i

/-- Ownership as the users of the pool see it. -/
structure Linear (layout : Layout) (c : HandleClient capacity) : Prop where
  alone : ∀ index index' left right, c.handle index = some left → c.handle index' = some right →
    left.object ≠ 0 → left.object = right.object → index = index'
  occupied : ∀ index handle, c.handle index = some handle → handle.object ≠ 0 →
    ∃ i < capacity, handle.object = layout.address i ∧ (c.pool.slot i).occupied = true
  owner : ∀ i < capacity, (c.pool.slot i).occupied = true →
    ((∃! index, c.refers layout index i) ∧ layout.address i ∉ c.released) ∨
      ((∀ index, ¬ c.refers layout index i) ∧ c.released.count (layout.address i) = 1)

theorem Owned.alone (h : Owned layout c owned) {index index' : Nat} {left right : Handle}
    (here : c.handle index = some left) (there : c.handle index' = some right)
    (full : left.object ≠ 0) (same : left.object = right.object) : index = index' := by
  have distinct : ((c.handles.filterMap (·.bind Handle.pointer)).map id).Nodup := by
    rw [List.map_id]
    exact (List.nodup_append.mp (h.circulating.nodup_iff.mp h.holds.distinct)).1
  have pointer : ∀ handle : Handle, handle.object = left.object →
      (some handle).bind Handle.pointer = some left.object := by
    intro handle same
    rw [Option.bind_some, Handle.pointer, same, if_neg full]
  exact List.position_unique distinct (getElem?_of_handle here) (getElem?_of_handle there)
    (pointer left rfl) (pointer right same.symm) rfl

theorem Owned.linear (h : Owned layout c owned) : c.Linear layout where
  alone index index' left right here there := h.alone here there
  occupied index handle here full := by
    have held := (mem_held full).mpr ⟨index, handle, here, rfl⟩
    have circulates := h.circulating.mem_iff.mpr (List.mem_append_left _ held)
    obtain ⟨entry, member, same⟩ := List.mem_map.mp circulates
    obtain ⟨-, i, bound, address, busy, -⟩ := h.holds.live entry member
    exact ⟨i, bound, same ▸ address, busy⟩
  owner i bound busy := by
    have full := FixedObjectPool.address_ne_null layout i
    have distinct := h.circulating.nodup_iff.mp h.holds.distinct
    obtain ⟨-, single, apart⟩ := List.nodup_append.mp distinct
    obtain ⟨entry, member, address⟩ := h.holds.covers i bound busy
    have circulates := h.circulating.mem_iff.mp (List.mem_map_of_mem member)
    rw [address] at circulates
    rcases List.mem_append.mp circulates with byHandle | byPointer
    · left
      obtain ⟨index, handle, here, same⟩ := (mem_held full).mp byHandle
      refine ⟨⟨index, ⟨handle, here, same⟩, ?_⟩, ?_⟩
      · rintro other ⟨handle', there, same'⟩
        exact h.alone there here (same' ▸ full) (same'.trans same.symm)
      · intro out
        exact apart _ byHandle _ (List.mem_filter.mpr ⟨out, by simpa using full⟩) rfl
    · right
      constructor
      · rintro index ⟨handle, here, same⟩
        exact apart _ ((mem_held full).mpr ⟨index, handle, here, same⟩) _ byPointer rfl
      · have counted := List.count_eq_one_of_mem single byPointer
        rwa [List.count_filter (by simpa using full)] at counted

theorem Owned.destroyPool (h : Owned layout c owned) :
    c.destroyPool.destroyed.Perm (List.range c.constructed) := by
  have living := h.residents.map Prod.snd
  rw [residents_snd] at living
  exact (living.symm.append_left _).trans h.once

end Linear

theorem run_owned {ops : List HandleOp} {answers : List Unit}
    (ran : Exec.run (step layout) ({} : HandleClient capacity) ops = some (c, answers)) :
    ∃ owned, Owned layout c owned := by
  refine Exec.run_induction (P := fun _ _ c => ∃ owned, Owned layout c owned)
    ⟨[], owned_start⟩ ?_ ran
  rintro ops answers t op u o ⟨owned, here⟩ moved
  exact here.step moved

/-- Over every history: handles own linearly, every object that was constructed is
destroyed once when the pool goes, no destructor runs while the owner keeps the object,
and a release is rejected only if a null pointer is handed in. -/
theorem ownership_linear {ops : List HandleOp} {answers : List Unit}
    (ran : Exec.run (step layout) ({} : HandleClient capacity) ops = some (c, answers)) :
    c.Linear layout ∧
    c.destroyPool.destroyed.Perm (List.range c.constructed) ∧
    ((∀ index, c.handle index = none) → ∀ i < capacity, (c.pool.slot i).occupied = true →
      layout.address i ∈ c.released) ∧
    (∀ (t : HandleClient capacity) op t', (t, op, t') ∈ Exec.moves (step layout) {} ops →
      ∀ object ∈ t'.destroyed, object ∈ t.destroyed ∨
        ∃ i < capacity, (t.pool.slot i).storage = some object ∧
          layout.address i ∈ t.pointers ∧ layout.address i ∉ t'.pointers) ∧
    (Exec.Always (step layout) (fun t op => t.passesNull op = false)
        ({} : HandleClient capacity) ops →
      c.pool.stats.invalidReleases = 0) := by
  obtain ⟨owned, last⟩ := run_owned ran
  refine ⟨last.linear, last.destroyPool, ?_, ?_, ?_⟩
  · intro ended i bound busy
    rcases last.linear.owner i bound busy with ⟨⟨index, ⟨handle, here, -⟩, -⟩, -⟩ | ⟨-, once⟩
    · rw [ended index] at here
      contradiction
    · exact List.count_pos_iff.mp (by omega)
  · refine Exec.past_induction (P := fun ops _ _ => ∀ (t : HandleClient capacity) op t',
      (t, op, t') ∈ Exec.moves (step layout) {} ops → ∀ object ∈ t'.destroyed,
        object ∈ t.destroyed ∨ ∃ i < capacity, (t.pool.slot i).storage = some object ∧
          layout.address i ∈ t.pointers ∧ layout.address i ∉ t'.pointers) nofun ?_ ran
    intro ops answers t op u o past before moved t₁ op₁ t₂ member
    rw [Exec.moves_concat past moved] at member
    rcases List.mem_append.mp member with earlier | now
    · exact before t₁ op₁ t₂ earlier
    · cases List.mem_singleton.mp now
      obtain ⟨owned, here⟩ := run_owned past
      exact fun object dead => here.destroys moved dead
  · refine Exec.past_induction
      (P := fun ops _ c => Exec.Always (step layout) (fun t op => t.passesNull op = false)
        ({} : HandleClient capacity) ops → c.pool.stats.invalidReleases = 0)
      (fun _ => rfl) ?_ ran
    intro ops answers t op u o past before moved real
    rw [Exec.always_concat past] at real
    obtain ⟨owned, here⟩ := run_owned past
    rw [here.valid moved real.2]
    exact before real.1

/- Three objects: one is overwritten, and the next takes over its address and leaves
through `release`. -/
theorem ownership_linear_reuse :
    let ops : List HandleOp := [.tryCreate false, .tryCreate false, .moveAssign 1 0,
      .tryCreate true, .tryCreate false, .release 2, .moveAssign 1 1, .destroy 0, .destruct 2,
      .destruct 1, .destruct 0]
    ∃ (c : HandleClient 2) (answers : List Unit),
      Exec.run (step ⟨1, 8, by decide, by decide⟩) {} ops = some (c, answers) ∧
      c.destroyPool.destroyed.Perm [0, 1, 2] ∧ c.pool.stats.invalidReleases = 0 := by
  intro ops
  have finishes : (Exec.run (step ⟨1, 8, by decide, by decide⟩) ({} : HandleClient 2) ops).any
      (fun ended => decide (ended.1.constructed = 3)) = true := by decide +kernel
  obtain ⟨⟨c, answers⟩, ran, made⟩ := (Option.any_eq_true _ _).mp finishes
  obtain ⟨-, once, -, -, valid⟩ := ownership_linear ran
  rw [of_decide_eq_true made] at once
  exact ⟨c, answers, ran, once, valid (by decide +kernel)⟩

/- `release` of an empty handle returns the null pointer, and `destroy` takes that for a
foreign one. -/
theorem null_release_rejected :
    ∃ (c : HandleClient 1) (answers : List Unit),
      Exec.run (step ⟨1, 8, by decide, by decide⟩) {} [.declare, .release 0, .destroy 0] =
        some (c, answers) ∧ c.pool.stats.invalidReleases = 1 :=
  ⟨_, _, rfl, rfl⟩

end EdgeSentinel.HandleClient
