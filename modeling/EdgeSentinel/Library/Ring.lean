import Mathlib.Data.Nat.ModEq

/-! A list laid out in a circular array. One equation per offset says both what
is stored in the window and that everything outside it is vacant, so "empty"
and "full" are told apart by the list although the two ends coincide. -/
namespace Ring

variable {T : Type*} {size head : Nat} {cells : Nat → Option T} {items : List T}

/-- The cells hold exactly the items, starting at `head` and wrapping at `size`. -/
structure Window (size : Nat) (cells : Nat → Option T) (head : Nat) (items : List T) : Prop where
  inside : head < size
  fits : items.length ≤ size
  layout : ∀ i < size, cells ((head + i) % size) = items[i]?

theorem offset_injective {i j : Nat} (hi : i < size) (hj : j < size)
    (same : (head + i) % size = (head + j) % size) : i = j :=
  Nat.ModEq.eq_of_lt_of_lt (Nat.ModEq.add_left_cancel' head same) hi hj

/-- Every cell is at some offset from the head. -/
theorem offset_surjective (inside : head < size) {cell : Nat} (bound : cell < size) :
    ∃ i < size, (head + i) % size = cell := by
  by_cases after : head ≤ cell
  · exact ⟨cell - head, by omega, by rw [Nat.add_sub_cancel' after, Nat.mod_eq_of_lt bound]⟩
  · refine ⟨size - head + cell, by omega, ?_⟩
    have wrapped : head + (size - head + cell) = cell + size := by omega
    rw [wrapped, Nat.add_mod_right, Nat.mod_eq_of_lt bound]

theorem window_vacant (positive : 0 < size) (vacant : ∀ i < size, cells i = none) :
    Window size cells 0 [] := by
  refine ⟨positive, Nat.zero_le _, ?_⟩
  intro i bound
  rw [Nat.zero_add, Nat.mod_eq_of_lt bound]
  exact vacant i bound

theorem Window.cell_head (h : Window size cells head items) : cells head = items.head? := by
  have first := h.layout 0 (Nat.lt_of_le_of_lt (Nat.zero_le _) h.inside)
  rwa [Nat.add_zero, Nat.mod_eq_of_lt h.inside, ← List.head?_eq_getElem?] at first

theorem Window.push (h : Window size cells head items) (room : items.length < size) (x : T)
    {cells' : Nat → Option T}
    (written : ∀ j < size, cells' j =
      if (head + items.length) % size = j then some x else cells j) :
    Window size cells' head (items ++ [x]) := by
  refine ⟨h.inside, by simpa using Nat.succ_le_of_lt room, ?_⟩
  intro i bound
  rw [written _ (Nat.mod_lt _ (Nat.zero_lt_of_lt bound))]
  split
  · rename_i same
    have here := offset_injective room bound same
    subst here
    simp
  · rename_i other
    have ne : i ≠ items.length := fun same => other (same ▸ rfl)
    rw [h.layout i bound]
    by_cases old : i < items.length
    · rw [List.getElem?_append_left old]
    · rw [List.getElem?_eq_none (by omega), List.getElem?_eq_none (by simp; omega)]

theorem Window.pop {x : T} (h : Window size cells head (x :: items)) {cells' : Nat → Option T}
    (written : ∀ j < size, cells' j = if head = j then none else cells j) :
    Window size cells' ((head + 1) % size) items := by
  have positive : 0 < size := Nat.lt_of_le_of_lt (Nat.zero_le _) h.inside
  have shorter : items.length < size := Nat.lt_of_succ_le h.fits
  refine ⟨Nat.mod_lt _ positive, Nat.le_of_lt shorter, ?_⟩
  intro i bound
  have shift : ((head + 1) % size + i) % size = (head + (i + 1)) % size := by
    rw [Nat.mod_add_mod, Nat.add_assoc, Nat.add_comm 1 i]
  rw [shift, written _ (Nat.mod_lt _ positive)]
  -- Offset `i + 1` is the old head again only when the window has gone full circle.
  by_cases last : i + 1 = size
  · rw [last, Nat.add_mod_right, Nat.mod_eq_of_lt h.inside, if_pos rfl,
      List.getElem?_eq_none (by omega)]
  · have next : i + 1 < size := by omega
    have other : head ≠ (head + (i + 1)) % size := by
      intro same
      have start : (head + 0) % size = (head + (i + 1)) % size := by
        rw [Nat.add_zero, Nat.mod_eq_of_lt h.inside]
        exact same
      have zero := offset_injective positive next start
      omega
    rw [if_neg other, h.layout (i + 1) next, List.getElem?_cons_succ]

/-- A cell is engaged exactly when it lies in the window. -/
theorem Window.engaged_iff (h : Window size cells head items) {cell : Nat} (bound : cell < size) :
    (cells cell).isSome ↔ ∃ i < items.length, (head + i) % size = cell := by
  obtain ⟨i, below, rfl⟩ := offset_surjective h.inside bound
  rw [h.layout i below]
  constructor
  · intro engaged
    exact ⟨i, by simpa using engaged, rfl⟩
  · rintro ⟨j, inWindow, same⟩
    have eq := offset_injective (Nat.lt_of_lt_of_le inWindow h.fits) below same
    subst eq
    simpa using inWindow

end Ring
