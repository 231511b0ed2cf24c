import EdgeSentinel.Library.BitPolynomial
import Mathlib.Algebra.CharP.Two
import Mathlib.RingTheory.AdjoinRoot

/-! Cyclic redundancy checks on a register of any width. The register stands for a residue
modulo the generator, where one shift multiplies by X; what a check detects is then a matter
of which error polynomials the generator divides. -/
namespace Crc

open Polynomial BitPolynomial

variable {w : ℕ} (taps : BitVec w)

def shift (s : BitVec w) : BitVec w := if s.msb then (s <<< 1) ^^^ taps else s <<< 1

/- The byte goes into the highest eight bits, then all eight are shifted out. -/
def feedByte (s : BitVec w) (b : BitVec 8) : BitVec w :=
  (shift taps)^[8] (s ^^^ (b.setWidth w <<< (w - 8)))

noncomputable def generator : (ZMod 2)[X] := X ^ w + toPoly taps

theorem degree_generator : (generator taps).degree = w := by
  rw [generator, degree_add_eq_left_of_degree_lt, degree_X_pow]
  rw [degree_X_pow]
  exact degree_toPoly_lt taps

theorem generator_monic : (generator taps).Monic := monic_X_pow_add (degree_toPoly_lt taps)

noncomputable def residue (s : BitVec w) : AdjoinRoot (generator taps) :=
  AdjoinRoot.mk (generator taps) (toPoly s)

theorem residue_xor (s t : BitVec w) :
    residue taps (s ^^^ t) = residue taps s + residue taps t := by
  rw [residue, toPoly_xor, map_add]
  rfl

/-- A multiple of the generator below its degree is zero. -/
theorem eq_zero_of_dvd {p : (ZMod 2)[X]} (small : p.degree < w) (divides : generator taps ∣ p) :
    p = 0 := by
  apply eq_zero_of_dvd_of_degree_lt divides
  rw [degree_generator]
  exact small

theorem residue_injective : Function.Injective (residue taps) := by
  intro s t same
  have divides := AdjoinRoot.mk_eq_mk.mp same
  have small : (toPoly s - toPoly t).degree < w :=
    (degree_sub_le _ _).trans_lt (max_lt (degree_toPoly_lt s) (degree_toPoly_lt t))
  exact toPoly_injective (sub_eq_zero.mp (eq_zero_of_dvd taps small divides))

theorem toPoly_shift (s : BitVec w) :
    X * toPoly s = toPoly (shift taps s) + C (digit s.msb) * generator taps := by
  rw [X_mul_toPoly, shift]
  cases s.msb with
  | false => simp [digit]
  | true =>
    have cancel : toPoly taps + toPoly taps = 0 := CharTwo.add_self_eq_zero _
    simp only [if_true, toPoly_xor, digit, C_1, one_mul, generator]
    linear_combination (-1 : (ZMod 2)[X]) * cancel

theorem residue_shift (s : BitVec w) :
    residue taps (shift taps s) = AdjoinRoot.root (generator taps) * residue taps s := by
  rw [residue, residue, ← AdjoinRoot.mk_X, ← map_mul, toPoly_shift, map_add, map_mul,
    AdjoinRoot.mk_self, mul_zero, add_zero]

theorem residue_iterate (n : ℕ) (s : BitVec w) :
    residue taps ((shift taps)^[n] s) = AdjoinRoot.root (generator taps) ^ n * residue taps s := by
  induction n with
  | zero => rw [Function.iterate_zero_apply, pow_zero, one_mul]
  | succ n ih => rw [Function.iterate_succ_apply', residue_shift, ih, pow_succ', mul_assoc]

theorem residue_feedByte (wide : 8 ≤ w) (s : BitVec w) (b : BitVec 8) :
    residue taps (feedByte taps s b) =
      AdjoinRoot.mk (generator taps) (X ^ 8 * toPoly s + X ^ w * toPoly b) := by
  have top : toPoly (b.setWidth w <<< (w - 8)) = X ^ (w - 8) * toPoly b :=
    toPoly_shiftLeft b (by omega)
  have whole : (X : (ZMod 2)[X]) ^ w = X ^ 8 * X ^ (w - 8) := by
    rw [← pow_add, Nat.add_sub_cancel' wide]
  rw [feedByte, residue_iterate, residue, toPoly_xor, top, ← AdjoinRoot.mk_X, ← map_pow, ← map_mul,
    whole]
  ring_nf

/-- What the register holds after a message. -/
theorem residue_message (wide : 8 ≤ w) (s : BitVec w) (bytes : List (BitVec 8)) :
    residue taps (bytes.foldl (feedByte taps) s) =
      AdjoinRoot.mk (generator taps)
        (X ^ (8 * bytes.length) * toPoly s + X ^ w * message bytes) := by
  induction bytes generalizing s with
  | nil => simp [residue, message_nil]
  | cons b rest ih =>
    have step : AdjoinRoot.mk (generator taps) (toPoly (feedByte taps s b)) =
        AdjoinRoot.mk (generator taps) (X ^ 8 * toPoly s + X ^ w * toPoly b) :=
      residue_feedByte taps wide s b
    rw [List.foldl_cons, ih, map_add, map_mul, step, ← map_mul, ← map_add, message_cons,
      List.length_cons]
    ring_nf

/-- The register is the remainder of what it was fed, with its start in front. -/
theorem toPoly_message (wide : 8 ≤ w) (s : BitVec w) (bytes : List (BitVec 8)) :
    toPoly (bytes.foldl (feedByte taps) s) =
      (message bytes * X ^ w + toPoly s * X ^ (8 * bytes.length)) %ₘ generator taps := by
  have divides := AdjoinRoot.mk_eq_mk.mp (residue_message taps wide s bytes).symm
  obtain ⟨quotient, product⟩ := divides
  have small : (toPoly (bytes.foldl (feedByte taps) s)).degree < (generator taps).degree := by
    rw [degree_generator]
    exact degree_toPoly_lt _
  have whole : toPoly (bytes.foldl (feedByte taps) s) + generator taps * quotient =
      message bytes * X ^ w + toPoly s * X ^ (8 * bytes.length) := by
    rw [← product]
    ring
  exact (div_modByMonic_unique quotient _ (generator_monic taps) ⟨whole, small⟩).2.symm

/-- A register that is fed its own bits is empty. -/
theorem feed_itself (wide : 8 ≤ w) {s : BitVec w} {bytes : List (BitVec 8)}
    (length : 8 * bytes.length = w) (same : message bytes = toPoly s) :
    bytes.foldl (feedByte taps) s = 0#w := by
  apply residue_injective taps
  rw [residue_message taps wide, length, same, CharTwo.add_self_eq_zero, residue, toPoly_zero]

/-- An error that the check misses is a multiple of the generator, whatever message and
whatever start of the register it falls on. -/
theorem dvd_of_missed (wide : 8 ≤ w) {s c d : BitVec w} {bytes errors : List (BitVec 8)}
    (same : bytes.length = errors.length) (sent : bytes.foldl (feedByte taps) s = c)
    (missed : (List.zipWith (· ^^^ ·) bytes errors).foldl (feedByte taps) s = c ^^^ d) :
    generator taps ∣ message errors * X ^ w + toPoly d := by
  have first := residue_message taps wide s bytes
  have second := residue_message taps wide s (List.zipWith (· ^^^ ·) bytes errors)
  rw [sent] at first
  rw [missed, residue_xor, first, message_xor same, List.length_zipWith, ← same, Nat.min_self,
    residue, ← map_add] at second
  have divides := AdjoinRoot.mk_eq_mk.mp second
  have cancel : toPoly d + toPoly d = 0 := CharTwo.add_self_eq_zero _
  rw [← dvd_neg] at divides
  refine divides.trans (dvd_of_eq ?_)
  linear_combination (-1 : (ZMod 2)[X]) * cancel

section Detection

variable {taps}

theorem even_of_dvd {bits : List Bool} (even : (generator taps).eval 1 = 0)
    (divides : generator taps ∣ ofBits bits) : Even (bits.count true) := by
  obtain ⟨q, product⟩ := divides
  rw [← ZMod.natCast_eq_zero_iff_even, ← eval_one_ofBits, product, eval_mul, even, zero_mul]

theorem coprime_X_pow (positive : 0 < w) (low : taps.getLsbD 0 = true) (n : ℕ) :
    IsCoprime (generator taps) (X ^ n) := by
  apply IsCoprime.pow_right
  apply IsCoprime.symm
  rw [Irreducible.coprime_iff_not_dvd irreducible_X, X_dvd_iff, generator, coeff_add,
    coeff_toPoly, low, coeff_X_pow, if_neg positive.ne, zero_add]
  decide

/-- No burst as long as the register or shorter is missed. -/
theorem clear_of_dvd_burst {bits : List Bool} (positive : 0 < w) (low : taps.getLsbD 0 = true)
    {first : ℕ} (burst : ∀ i, bits[i]? = some true → first ≤ i ∧ i < first + w)
    (divides : generator taps ∣ ofBits bits) : true ∉ bits := by
  have front : true ∉ bits.take first := by
    intro member
    obtain ⟨i, found⟩ := List.mem_iff_getElem?.mp member
    rw [List.getElem?_take] at found
    split at found
    · have := burst i found
      omega
    · contradiction
  have back : true ∉ (bits.drop first).drop w := by
    intro member
    obtain ⟨i, found⟩ := List.mem_iff_getElem?.mp member
    rw [List.drop_drop, List.getElem?_drop] at found
    have := burst _ found
    omega
  have form : ofBits bits = ofBits ((bits.drop first).take w) *
      X ^ ((bits.drop first).drop w).length := by
    conv_lhs => rw [← List.take_append_drop first bits, ← List.take_append_drop w (bits.drop first)]
    rw [ofBits_append, ofBits_append, ofBits_of_clear front, ofBits_of_clear back, zero_mul,
      zero_add, add_zero]
  rw [form] at divides
  have window := (coprime_X_pow positive low _).dvd_of_dvd_mul_right divides
  have small : (ofBits ((bits.drop first).take w)).degree < w :=
    (degree_ofBits_lt _).trans_le (Nat.cast_le.mpr (List.length_take_le w _))
  have middle := ofBits_eq_zero (eq_zero_of_dvd taps small window)
  rw [← List.take_append_drop first bits, ← List.take_append_drop w (bits.drop first)]
  simp only [List.mem_append, not_or]
  exact ⟨front, middle, back⟩

/-- Two wrong bits are missed only when X has come round to one between them. -/
theorem round_of_dvd_pair {bits : List Bool} (positive : 0 < w) (low : taps.getLsbD 0 = true)
    (weight : bits.count true = 2) (divides : generator taps ∣ ofBits bits) :
    ∃ k, 0 < k ∧ k < bits.length ∧ (shift taps)^[k] 1#w = 1#w := by
  obtain ⟨i, j, order, bound, form⟩ := ofBits_pair weight
  have factored : ofBits bits = (X ^ (j - i) + 1) * X ^ i := by
    rw [form, add_mul, ← pow_add, Nat.sub_add_cancel order.le, one_mul]
  rw [factored] at divides
  have divides := (coprime_X_pow positive low i).dvd_of_dvd_mul_right divides
  refine ⟨j - i, by omega, by omega, residue_injective taps ?_⟩
  have one : residue taps 1#w = 1 := by rw [residue, toPoly_one positive, map_one]
  rw [residue_iterate, one, mul_one, ← AdjoinRoot.mk_X, ← map_pow, ← map_one (AdjoinRoot.mk _),
    AdjoinRoot.mk_eq_mk, CharTwo.sub_eq_add]
  exact divides

end Detection

end Crc
