import Mathlib.Algebra.Group.Nat.Defs

/-! Unsigned 64-bit counters kept as naturals: `++` and `--` wrap at 2^64. -/
namespace SizeT

def increment (n : ℕ) : ℕ := (n + 1) % 2 ^ 64

def decrement (n : ℕ) : ℕ := (n + (2 ^ 64 - 1)) % 2 ^ 64

/- The difference of two counters. -/
def subtract (a b : ℕ) : ℕ := (a + (2 ^ 64 - b)) % 2 ^ 64

/-- A count below a 64-bit limit is incremented without wrapping. -/
theorem increment_below {k limit : ℕ} (size : limit < 2 ^ 64) (below : k = 0 ∨ k < limit) :
    increment k = k + 1 := by
  unfold increment
  omega

/-- A count that is not zero is decremented without wrapping. -/
theorem decrement_succ {k : ℕ} (small : k < 2 ^ 64) : decrement (k + 1) = k := by
  unfold decrement
  omega

/-- A counter of the elements with a property, one element further. -/
theorem increment_countP {A : Type} (f : A → Bool) {count : ℕ} {l : List A}
    (exact : count = l.countP f % 2 ^ 64) (a : A) :
    (if f a then increment count else count) = (l ++ [a]).countP f % 2 ^ 64 := by
  rw [List.countP_append, List.countP_singleton, exact]
  split
  · exact Nat.mod_add_mod _ _ 1
  · rfl

/-- Counters that have both wrapped still show a small difference. -/
theorem subtract_mod {a b n : ℕ} (small : n < 2 ^ 64) (sum : a = n + b) :
    subtract (a % 2 ^ 64) (b % 2 ^ 64) = n := by
  unfold subtract
  omega

/-- A counter of which so many increments are still to come. -/
def Lags (counter total behind : ℕ) : Prop := ∃ n, n + behind = total ∧ counter = n % 2 ^ 64

namespace Lags

variable {counter total behind : ℕ}

theorem start : Lags 0 0 0 := ⟨0, rfl, rfl⟩

/-- One more to count. -/
theorem owe (h : Lags counter total behind) : Lags counter (total + 1) (behind + 1) := by
  obtain ⟨n, sum, value⟩ := h
  exact ⟨n, by omega, value⟩

/-- One of those to come is counted. -/
theorem pay (h : Lags counter total (behind + 1)) : Lags (increment counter) total behind := by
  obtain ⟨n, sum, value⟩ := h
  refine ⟨n + 1, by omega, ?_⟩
  rw [increment, value, Nat.mod_add_mod]

theorem count (h : Lags counter total 0) : counter = total % 2 ^ 64 := by
  obtain ⟨n, rfl, value⟩ := h
  exact value

/-- Before it wraps, the counter shows what it has counted. -/
theorem sum (h : Lags counter total behind) (small : total < 2 ^ 64) :
    counter + behind = total := by
  obtain ⟨n, sum, value⟩ := h
  rw [value, Nat.mod_eq_of_lt (by omega), sum]

end Lags

end SizeT
