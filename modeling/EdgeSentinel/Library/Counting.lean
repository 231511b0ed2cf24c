import Mathlib.Algebra.Order.Ring.Nat
import Mathlib.Data.List.Basic
import Mathlib.Data.List.Perm.Basic

/-! Lists of which a part is looked at: how that part and its size change when one
element is replaced, and when its members are known by a key. -/
namespace List

variable {α : Type*}

theorem countP_concat (f : α → Bool) (l : List α) (a : α) :
    (l ++ [a]).countP f = l.countP f + (f a).toNat := by
  rw [countP_append, countP_singleton]
  cases f a <;> rfl

theorem countP_set_add (f : α → Bool) {l : List α} {i : Nat} {a : α} (here : l[i]? = some a)
    (b : α) : (l.set i b).countP f + (f a).toNat = l.countP f + (f b).toNat := by
  induction l generalizing i with
  | nil => contradiction
  | cons x rest ih =>
    cases i with
    | zero =>
      cases here
      rw [set_cons_zero, countP_cons, countP_cons]
      cases f a <;> cases f b <;> simp
    | succ i =>
      have later := ih here
      rw [set_cons_succ, countP_cons, countP_cons]
      omega

/-- The same for a function on the first numbers. -/
theorem countP_range_update {n i : Nat} (bound : i < n) {f g : Nat → Bool}
    (others : ∀ j, i ≠ j → g j = f j) :
    (range n).countP g + (f i).toNat = (range n).countP f + (g i).toNat := by
  have updated : (range n).map g = ((range n).map f).set i (g i) := by
    apply ext_getElem
    · simp
    · intro j _ _
      simp only [getElem_map, getElem_range, getElem_set]
      split
      · rename_i here
        rw [here]
      · rename_i other
        exact others j other
  have here : ((range n).map f)[i]? = some (f i) := by simp [bound]
  have count := countP_set_add id here (g i)
  rw [← updated, countP_map, countP_map] at count
  exact count

theorem sum_map_set_add (f : α → Nat) {l : List α} {i : Nat} {a : α} (here : l[i]? = some a)
    (b : α) : ((l.set i b).map f).sum + f a = (l.map f).sum + f b := by
  induction l generalizing i with
  | nil => contradiction
  | cons x rest ih =>
    cases i with
    | zero =>
      cases here
      rw [set_cons_zero, map_cons, map_cons, sum_cons, sum_cons]
      omega
    | succ i =>
      have later := ih here
      rw [set_cons_succ, map_cons, map_cons, sum_cons, sum_cons]
      omega

/-- Replacing one element exchanges its image for that of the new one. -/
theorem perm_filterMap_set {β : Type*} (f : α → Option β) {l : List α} {i : Nat} {a : α}
    (here : l[i]? = some a) (b : α) :
    ((f a).toList ++ (l.set i b).filterMap f).Perm ((f b).toList ++ l.filterMap f) := by
  induction l generalizing i with
  | nil => contradiction
  | cons x rest ih =>
    cases i with
    | zero =>
      cases here
      rw [set_cons_zero, filterMap_cons, filterMap_cons]
      cases f a with
      | none => cases f b <;> exact .refl _
      | some y =>
        cases f b with
        | none => exact .refl _
        | some z => exact .swap z y _
    | succ i =>
      have rest := ih here
      rw [set_cons_succ, filterMap_cons, filterMap_cons]
      cases f x with
      | none => exact rest
      | some y => exact perm_middle.trans ((rest.cons y).trans perm_middle.symm)

/-- Two positions whose images share a key that no two images share are one. -/
theorem position_unique {β γ : Type*} {f : α → Option β} {key : β → γ} {l : List α}
    (distinct : ((l.filterMap f).map key).Nodup) {i j : Nat} {a b : α} {x y : β}
    (first : l[i]? = some a) (second : l[j]? = some b) (left : f a = some x) (right : f b = some y)
    (same : key x = key y) : i = j := by
  rw [Nodup, pairwise_map, pairwise_filterMap, pairwise_iff_getElem] at distinct
  obtain ⟨bound, rfl⟩ := getElem?_eq_some_iff.mp first
  obtain ⟨bound', rfl⟩ := getElem?_eq_some_iff.mp second
  by_contra other
  rcases Nat.lt_or_gt_of_ne other with before | after
  · exact distinct i j bound bound' before x left y right same
  · exact distinct j i bound' bound after y right x left same.symm

/-- What is counted is at most as much as the positions it can be found at. -/
theorem countP_le_of_positions {p : α → Bool} {l : List α} {positions : List Nat}
    (found : ∀ (i : Nat) a, l[i]? = some a → p a = true → i ∈ positions) :
    l.countP p ≤ positions.length := by
  have indexed : l.map some = (range l.length).map fun i => l[i]? := by
    apply ext_getElem
    · simp
    · intro i inside _
      rw [length_map] at inside
      simp [inside]
  have count : l.countP p = (range l.length).countP fun i => l[i]?.any p := by
    have same := congrArg (countP (Option.any p)) indexed
    rw [countP_map, countP_map] at same
    exact same
  rw [count, countP_eq_length_filter]
  have distinct : ((range l.length).filter fun i => l[i]?.any p).Nodup := nodup_range.filter _
  apply (subperm_of_subset distinct _).length_le
  intro i member
  obtain ⟨a, here, holds⟩ := (Option.any_eq_true _ _).mp (mem_filter.mp member).2
  exact found i a here holds

end List
