import Mathlib.Algebra.Field.ZMod
import Mathlib.Algebra.Polynomial.Eval.Degree

/-! Bits as polynomials over the field with two elements. A word gives its bit i to the
coefficient i; a list of bits is read with its first bit as the highest coefficient, the
order in which a serial line sends them. Exclusive or is addition in both readings. -/
namespace BitPolynomial

open Polynomial

/- The coefficient that stands for a bit. -/
def digit (b : Bool) : ZMod 2 := if b then 1 else 0

theorem digit_xor (a b : Bool) : digit (a ^^ b) = digit a + digit b := by
  cases a <;> cases b <;> decide

theorem digit_injective : Function.Injective digit := by
  intro a b same
  cases a <;> cases b <;> first | rfl | exact absurd same (by decide)

section Words

variable {w : ℕ}

noncomputable def toPoly (s : BitVec w) : (ZMod 2)[X] :=
  ∑ i ∈ Finset.range w, C (digit (s.getLsbD i)) * X ^ i

theorem coeff_toPoly (s : BitVec w) (n : ℕ) : (toPoly s).coeff n = digit (s.getLsbD n) := by
  simp only [toPoly, finsetSum_coeff, coeff_C_mul_X_pow]
  rw [Finset.sum_ite_eq (Finset.range w) n]
  split
  · rfl
  · rename_i outside
    rw [Finset.mem_range, Nat.not_lt] at outside
    rw [BitVec.getLsbD_of_ge s n outside]
    rfl

theorem toPoly_injective : Function.Injective (toPoly (w := w)) := by
  intro s t same
  apply BitVec.eq_of_getLsbD_eq
  intro i _
  apply digit_injective
  rw [← coeff_toPoly, ← coeff_toPoly, same]

theorem degree_toPoly_lt (s : BitVec w) : (toPoly s).degree < w := by
  rw [degree_lt_iff_coeff_zero]
  intro n outside
  rw [coeff_toPoly, BitVec.getLsbD_of_ge s n outside]
  rfl

theorem toPoly_xor (s t : BitVec w) : toPoly (s ^^^ t) = toPoly s + toPoly t := by
  ext n
  rw [coeff_add, coeff_toPoly, coeff_toPoly, coeff_toPoly, BitVec.getLsbD_xor, digit_xor]

theorem toPoly_zero : toPoly 0#w = 0 := by
  ext n
  rw [coeff_toPoly, BitVec.getLsbD_zero]
  rfl

theorem toPoly_one (positive : 0 < w) : toPoly 1#w = 1 := by
  ext n
  rw [coeff_toPoly, coeff_one, BitVec.getLsbD_one]
  by_cases lowest : n = 0
  · simp [lowest, positive, digit]
  · simp [lowest, digit]

/-- A word moved up inside a wider one, none of its bits lost. -/
theorem toPoly_shiftLeft {v : ℕ} (s : BitVec v) {places : ℕ} (fits : v + places ≤ w) :
    toPoly (s.setWidth w <<< places) = X ^ places * toPoly s := by
  ext n
  rw [coeff_toPoly, coeff_X_pow_mul', BitVec.getLsbD_shiftLeft, BitVec.getLsbD_setWidth]
  by_cases below : n < places
  · simp [below, Nat.not_le.mpr below, digit]
  · rw [if_pos (Nat.not_lt.mp below), coeff_toPoly]
    by_cases inside : n < w
    · have small : n - places < w := by omega
      simp [below, inside, small]
    · have outside := BitVec.getLsbD_of_ge s (n - places) (by omega)
      simp [inside, outside]

/-- A shift by one place loses the highest bit. -/
theorem X_mul_toPoly (s : BitVec w) :
    X * toPoly s = toPoly (s <<< 1) + C (digit s.msb) * X ^ w := by
  ext n
  rw [coeff_add, coeff_toPoly, coeff_C_mul_X_pow, BitVec.getLsbD_shiftLeft,
    BitVec.msb_eq_getLsbD_last]
  cases n with
  | zero =>
    by_cases empty : 0 = w
    · subst empty
      simp [digit]
    · simp [empty, digit]
  | succ n =>
    rw [coeff_X_mul, coeff_toPoly]
    rcases Nat.lt_trichotomy (n + 1) w with inside | last | outside
    · simp [inside, inside.ne]
    · have highest : w - 1 = n := by omega
      simp [last, highest, digit]
    · have gone := BitVec.getLsbD_of_ge s n (by omega)
      simp [gone, outside.ne', digit]

theorem toPoly_append {v : ℕ} (s : BitVec v) (t : BitVec w) :
    toPoly (s ++ t) = X ^ w * toPoly s + toPoly t := by
  ext n
  rw [coeff_add, coeff_X_pow_mul', coeff_toPoly, coeff_toPoly, coeff_toPoly,
    BitVec.getLsbD_append]
  by_cases low : n < w
  · rw [if_pos low, if_neg (Nat.not_le.mpr low), zero_add]
  · have high := Nat.not_lt.mp low
    rw [if_neg low, if_pos high, BitVec.getLsbD_of_ge t n high]
    exact (add_zero _).symm

end Words

section Bits

/-- A list of bits, the first one the highest coefficient. -/
noncomputable def ofBits : List Bool → (ZMod 2)[X]
  | [] => 0
  | b :: rest => C (digit b) * X ^ rest.length + ofBits rest

theorem ofBits_append (xs ys : List Bool) :
    ofBits (xs ++ ys) = ofBits xs * X ^ ys.length + ofBits ys := by
  induction xs with
  | nil => rw [List.nil_append, ofBits, zero_mul, zero_add]
  | cons b rest ih =>
    rw [List.cons_append, ofBits, ofBits, ih, List.length_append, pow_add]
    ring

theorem degree_ofBits_lt (bits : List Bool) : (ofBits bits).degree < bits.length := by
  induction bits with
  | nil => simp [ofBits]
  | cons b rest ih =>
    have longer : (rest.length : WithBot ℕ) < (b :: rest).length :=
      Nat.cast_lt.mpr (Nat.lt_succ_self _)
    have front := degree_C_mul_X_pow_le rest.length (digit b)
    exact (degree_add_le _ _).trans_lt (max_lt (front.trans_lt longer) (ih.trans longer))

/-- Only a list without a set bit is the zero polynomial. -/
theorem ofBits_eq_zero {bits : List Bool} (zero : ofBits bits = 0) : true ∉ bits := by
  induction bits with
  | nil => exact List.not_mem_nil
  | cons b rest ih =>
    have high := congrArg (coeff · rest.length) zero
    simp only [ofBits, coeff_add, coeff_C_mul_X_pow, if_true, coeff_zero,
      coeff_eq_zero_of_degree_lt (degree_ofBits_lt rest), add_zero] at high
    have clear : b = false := digit_injective high
    subst clear
    rw [ofBits, high, C_0, zero_mul, zero_add] at zero
    simpa using ih zero

theorem ofBits_of_clear {bits : List Bool} (clear : true ∉ bits) : ofBits bits = 0 := by
  induction bits with
  | nil => rfl
  | cons b rest ih =>
    rw [List.mem_cons, not_or] at clear
    have low : b = false := Bool.eq_false_of_not_eq_true (Ne.symm clear.1)
    rw [ofBits, ih clear.2, low]
    simp [digit]

/-- At one, a list of bits counts those that are set. -/
theorem eval_one_ofBits (bits : List Bool) : (ofBits bits).eval 1 = (bits.count true : ZMod 2) := by
  induction bits with
  | nil => simp [ofBits]
  | cons b rest ih => cases b <;> simp [ofBits, ih, digit, add_comm]

theorem ofBits_single {bits : List Bool} (weight : bits.count true = 1) :
    ∃ i < bits.length, ofBits bits = X ^ i := by
  induction bits with
  | nil => contradiction
  | cons b rest ih =>
    cases b with
    | false =>
      obtain ⟨i, bound, form⟩ := ih (by simpa using weight)
      exact ⟨i, Nat.lt_succ_of_lt bound, by simp [ofBits, form, digit]⟩
    | true =>
      have clear : true ∉ rest := List.count_eq_zero.mp (by simpa using weight)
      exact ⟨rest.length, Nat.lt_succ_self _, by simp [ofBits, ofBits_of_clear clear, digit]⟩

theorem ofBits_pair {bits : List Bool} (weight : bits.count true = 2) :
    ∃ i j, i < j ∧ j < bits.length ∧ ofBits bits = X ^ j + X ^ i := by
  induction bits with
  | nil => contradiction
  | cons b rest ih =>
    cases b with
    | false =>
      obtain ⟨i, j, order, bound, form⟩ := ih (by simpa using weight)
      exact ⟨i, j, order, Nat.lt_succ_of_lt bound, by simp [ofBits, form, digit]⟩
    | true =>
      have single : rest.count true = 1 := by simpa using weight
      obtain ⟨i, bound, form⟩ := ofBits_single single
      exact ⟨i, rest.length, bound, Nat.lt_succ_self _, by simp [ofBits, form, digit]⟩

end Bits

section Bytes

/- A byte in the order of transmission. -/
def byteBits (b : BitVec 8) : List Bool := (List.range 8).map b.getMsbD

def bytesBits (bytes : List (BitVec 8)) : List Bool := bytes.flatMap byteBits

theorem ofBits_byte (b : BitVec 8) : ofBits (byteBits b) = toPoly b := by
  have expand : byteBits b = [b.getLsbD 7, b.getLsbD 6, b.getLsbD 5, b.getLsbD 4, b.getLsbD 3,
      b.getLsbD 2, b.getLsbD 1, b.getLsbD 0] := rfl
  rw [expand]
  simp only [ofBits, toPoly, Finset.sum_range_succ, Finset.sum_range_zero, List.length_cons,
    List.length_nil]
  ring

@[simp] theorem byteBits_length (b : BitVec 8) : (byteBits b).length = 8 := rfl

@[simp] theorem bytesBits_length (bytes : List (BitVec 8)) :
    (bytesBits bytes).length = 8 * bytes.length := by
  simp [bytesBits, List.length_flatMap, Nat.mul_comm]

/-- A message: its bytes in order, each with its highest bit first. -/
noncomputable def message (bytes : List (BitVec 8)) : (ZMod 2)[X] := ofBits (bytesBits bytes)

theorem message_nil : message [] = 0 := rfl

theorem message_cons (b : BitVec 8) (rest : List (BitVec 8)) :
    message (b :: rest) = toPoly b * X ^ (8 * rest.length) + message rest := by
  rw [message, bytesBits, List.flatMap_cons, ofBits_append, ofBits_byte, ← bytesBits,
    bytesBits_length, message]

theorem message_append (xs ys : List (BitVec 8)) :
    message (xs ++ ys) = message xs * X ^ (8 * ys.length) + message ys := by
  rw [message, bytesBits, List.flatMap_append, ofBits_append, ← bytesBits, ← bytesBits,
    bytesBits_length, message, message]

theorem message_xor {xs ys : List (BitVec 8)} (same : xs.length = ys.length) :
    message (List.zipWith (· ^^^ ·) xs ys) = message xs + message ys := by
  induction xs generalizing ys with
  | nil =>
    rw [List.length_nil] at same
    rw [List.eq_nil_of_length_eq_zero same.symm]
    exact (add_zero _).symm
  | cons x xs ih =>
    cases ys with
    | nil => contradiction
    | cons y ys =>
      have rest : xs.length = ys.length := Nat.succ.inj same
      rw [List.zipWith_cons_cons, message_cons, message_cons, message_cons, ih rest,
        List.length_zipWith, ← rest, Nat.min_self, toPoly_xor]
      ring

end Bytes

end BitPolynomial
