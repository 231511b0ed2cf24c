import Mathlib.Data.List.Perm.Subperm
import EdgeSentinel.Pool.FreeList

/-! Who owns the slots of a pool. The clients' handles form one list; the pool
occupies exactly the slots they point to, and no two of them point to the same. -/
namespace EdgeSentinel.FixedObjectPool

variable {α β ε : Type} {capacity : Nat}

/- The handle points to an occupied slot with the object its owner knows. -/
def Backed (view : α → β) (layout : Layout) (p : FixedObjectPool α capacity)
    (entry : Handle × β) : Prop :=
  entry.1.pool = true ∧ ∃ i < capacity, entry.1.object = layout.address i ∧
    (p.slot i).occupied = true ∧ (p.slot i).storage.map view = some entry.2

/-- The handles in circulation, each with what its owner knows of the object. -/
structure Holds (view : α → β) (layout : Layout) (p : FixedObjectPool α capacity)
    (owned : List (Handle × β)) : Prop where
  linked : p.WellLinked
  distinct : (owned.map fun entry => entry.1.object).Nodup
  live : ∀ entry ∈ owned, Backed view layout p entry
  covers : ∀ i < capacity, (p.slot i).occupied = true →
    ∃ entry ∈ owned, entry.1.object = layout.address i

section Clients

variable {view : α → β} {layout : Layout} {p : FixedObjectPool α capacity}
  {owned : List (Handle × β)}

theorem holds_empty : Holds view layout (empty capacity : FixedObjectPool α capacity) [] where
  linked := empty_wellLinked
  distinct := List.nodup_nil
  live := nofun
  covers i bound busy := by
    rw [slot_empty i bound] at busy
    contradiction

theorem Holds.perm {owned' : List (Handle × β)} (h : Holds view layout p owned)
    (same : owned.Perm owned') : Holds view layout p owned' where
  linked := h.linked
  distinct := (same.map _).nodup_iff.mp h.distinct
  live entry member := h.live entry (same.mem_iff.mpr member)
  covers i bound busy := by
    obtain ⟨entry, member, address⟩ := h.covers i bound busy
    exact ⟨entry, same.mem_iff.mp member, address⟩

theorem Holds.restat (h : Holds view layout p owned) (stats : PoolStats) :
    Holds view layout { p with stats := stats } owned :=
  ⟨h.linked.restat stats, h.distinct, h.live, h.covers⟩

/-- An owned handle reads back what its owner knows. -/
theorem Holds.deref (h : Holds view layout p owned) {handle : Handle} {known : β}
    (member : (handle, known) ∈ owned) : (p.deref layout handle).map view = some known := by
  obtain ⟨-, i, bound, address, -, stored⟩ := h.live _ member
  rw [FixedObjectPool.deref, address, findSlot_address layout bound]
  exact stored

/-- Writing a slot that nobody owns disturbs no owner. -/
theorem live_write {q : FixedObjectPool α capacity} {index : Nat} {value : Slot α}
    (live : ∀ entry ∈ owned, Backed view layout p entry)
    (slots : ∀ j, q.slot j = if index = j then value else p.slot j)
    (unowned : ∀ entry ∈ owned, entry.1.object ≠ layout.address index) :
    ∀ entry ∈ owned, Backed view layout q entry := by
  intro entry member
  obtain ⟨pool, i, bound, address, busy, stored⟩ := live entry member
  have other : index ≠ i := by
    rintro rfl
    exact unowned entry member address
  refine ⟨pool, i, bound, address, ?_⟩
  rw [slots i, if_neg other]
  exact ⟨busy, stored⟩

/-- Allocation either finds no free slot or adds an owner. -/
theorem Holds.tryCreate (h : Holds view layout p owned) (object : α) :
    (p.freeHead = capacity ∧ ∃ q : FixedObjectPool α capacity,
      p.tryCreate layout (.ok object : Except ε α) = (q, .ok {}) ∧ Holds view layout q owned) ∨
    (p.freeHead ≠ capacity ∧ ∃ (q : FixedObjectPool α capacity) (handle : Handle),
      p.tryCreate layout (.ok object : Except ε α) = (q, .ok handle) ∧ handle.object ≠ 0 ∧
        Holds view layout q ((handle, view object) :: owned)) := by
  by_cases none : p.freeHead = capacity
  · exact .inl ⟨none, _, tryCreate_exhausted layout none _, h.restat _⟩
  · obtain ⟨q, created, head, slots⟩ := h.linked.tryCreate_ok layout (ε := ε) none object
    obtain ⟨bound, free⟩ := h.linked.head_free none
    have fresh : ∀ entry ∈ owned, entry.1.object ≠ layout.address p.freeHead := by
      intro entry member same
      obtain ⟨-, i, -, address, busy, -⟩ := h.live entry member
      rw [address_injective layout (address.symm.trans same), free] at busy
      contradiction
    have taken := slots p.freeHead
    rw [if_pos rfl] at taken
    refine .inr ⟨none, q, _, created, address_ne_null layout _, ?_, ?_, ?_, ?_⟩
    · exact h.linked.take none head slots
    · rw [List.map_cons, List.nodup_cons]
      refine ⟨?_, h.distinct⟩
      intro member
      obtain ⟨entry, inside, same⟩ := List.mem_map.mp member
      exact fresh entry inside same
    · intro entry member
      obtain rfl | inside := List.mem_cons.mp member
      · exact ⟨rfl, p.freeHead, bound, rfl, by rw [taken], by rw [taken]; rfl⟩
      · exact live_write h.live slots fresh entry inside
    · intro i inside busy
      by_cases here : p.freeHead = i
      · exact ⟨_, List.mem_cons_self, by rw [here]⟩
      · rw [slots i, if_neg here] at busy
        obtain ⟨entry, member, address⟩ := h.covers i inside busy
        exact ⟨entry, List.mem_cons_of_mem _ member, address⟩

/-- Giving a handle back ends one ownership and leaves the others alone. -/
theorem Holds.reset {handle : Handle} {known : β}
    (h : Holds view layout p ((handle, known) :: owned)) :
    Holds view layout (p.reset layout handle) owned := by
  obtain ⟨pool, index, bound, address, busy, -⟩ := h.live _ List.mem_cons_self
  simp only at pool address
  obtain ⟨q, released, head, slots⟩ := destroy_occupied layout bound busy
  have next : p.reset layout handle = q := by
    have valid : layout.address index ≠ 0 ∧ handle.pool = true :=
      ⟨address_ne_null layout index, pool⟩
    rw [FixedObjectPool.reset, address, if_pos valid, released]
  obtain ⟨alone, distinct⟩ := List.nodup_cons.mp h.distinct
  have others : ∀ entry ∈ owned, entry.1.object ≠ layout.address index := by
    intro entry member same
    exact alone (List.mem_map.mpr ⟨entry, member, same.trans address.symm⟩)
  rw [next]
  refine ⟨h.linked.give bound busy head slots, distinct, ?_, ?_⟩
  · exact live_write (fun entry member => h.live entry (List.mem_cons_of_mem _ member)) slots others
  · intro i inside occupied
    have other : index ≠ i := by
      rintro rfl
      rw [slots index, if_pos rfl] at occupied
      contradiction
    rw [slots i, if_neg other] at occupied
    obtain ⟨entry, member, same⟩ := h.covers i inside occupied
    obtain rfl | later := List.mem_cons.mp member
    · exact absurd (address_injective layout (address.symm.trans same)) other
    · exact ⟨entry, later, same⟩

/-- A handle in circulation is never rejected when it comes back. -/
theorem Holds.reset_stats {handle : Handle} {known : β}
    (h : Holds view layout p ((handle, known) :: owned)) :
    (p.reset layout handle).stats =
      { p.stats with
        inUse := SizeT.decrement p.stats.inUse
        successfulReleases := SizeT.increment p.stats.successfulReleases } := by
  obtain ⟨pool, index, bound, address, busy, -⟩ := h.live _ List.mem_cons_self
  simp only at pool address
  have valid : layout.address index ≠ 0 ∧ handle.pool = true :=
    ⟨address_ne_null layout index, pool⟩
  have taken : ¬ (p.slot index).occupied = false := by simp [busy]
  rw [FixedObjectPool.reset, address, if_pos valid]
  simp only [destroy, findSlot_address layout bound, if_neg (Nat.ne_of_lt bound), if_neg taken]

/-- No more handles circulate than there are slots. -/
theorem Holds.length_le (h : Holds view layout p owned) : owned.length ≤ capacity := by
  have inside : (owned.map fun entry => entry.1.object) ⊆
      (List.range capacity).map layout.address := by
    intro object member
    obtain ⟨entry, owner, rfl⟩ := List.mem_map.mp member
    obtain ⟨-, i, bound, address, -⟩ := h.live entry owner
    exact List.mem_map.mpr ⟨i, List.mem_range.mpr bound, address.symm⟩
  simpa using (h.distinct.subperm inside).length_le

/-- The statistics count the handles in circulation, and none was ever rejected. -/
structure Metered (p : FixedObjectPool α capacity) (count : Nat) : Prop where
  inUse : p.stats.inUse = count
  valid : p.stats.invalidReleases = 0

theorem Metered.count {count count' : Nat} (m : p.Metered count) (same : count = count') :
    p.Metered count' := same ▸ m

variable (layout) in
theorem Metered.tryCreate {count : Nat} (m : p.Metered count) (some : p.freeHead ≠ capacity)
    (small : count + 1 < 2 ^ 64) (object : α) :
    (p.tryCreate layout (.ok object : Except ε α)).1.Metered (count + 1) := by
  have stats := tryCreate_stats layout (ε := ε) some object
  constructor
  · rw [stats, m.inUse]
    exact SizeT.increment_below small (.inr (Nat.lt_succ_self count))
  · rw [stats]
    exact m.valid

theorem Metered.reset {count : Nat} {handle : Handle} {known : β} (m : p.Metered (count + 1))
    (h : Holds view layout p ((handle, known) :: owned)) (small : count < 2 ^ 64) :
    (p.reset layout handle).Metered count := by
  constructor
  · rw [h.reset_stats, m.inUse]
    exact SizeT.decrement_succ small
  · rw [h.reset_stats]
    exact m.valid

/-- With no slot left, as many handles circulate as there are slots. -/
theorem Holds.exhausted (h : Holds view layout p owned) (none : p.freeHead = capacity) :
    capacity ≤ owned.length := by
  have busy := h.linked.exhausted_iff.mp none
  have covered : ((List.range capacity).map layout.address) ⊆
      owned.map fun entry => entry.1.object := by
    intro object member
    obtain ⟨i, inside, rfl⟩ := List.mem_map.mp member
    obtain ⟨entry, owner, address⟩ := h.covers i (List.mem_range.mp inside)
      (busy i (List.mem_range.mp inside))
    exact List.mem_map.mpr ⟨entry, owner, address⟩
  have distinct : ((List.range capacity).map layout.address).Nodup :=
    List.nodup_range.map fun i j same => address_injective layout same
  simpa using (distinct.subperm covered).length_le

end Clients

end EdgeSentinel.FixedObjectPool
