import Mathlib.Data.Nat.Bitwise

/-! Fixed-width words as big-endian bytes. Both directions are inverse to each
other, so a decoder can be checked against the encoder on its whole image. -/
namespace BigEndian

def bytes16 (word : UInt16) : List UInt8 :=
  [((word >>> 8) &&& 0xFF).toUInt8, (word &&& 0xFF).toUInt8]

def word16 (a b : UInt8) : UInt16 := a.toUInt16 <<< 8 ||| b.toUInt16

def bytes32 (word : UInt32) : List UInt8 :=
  [((word >>> 24) &&& 0xFF).toUInt8, ((word >>> 16) &&& 0xFF).toUInt8,
    ((word >>> 8) &&& 0xFF).toUInt8, (word &&& 0xFF).toUInt8]

def word32 (a b c d : UInt8) : UInt32 :=
  a.toUInt32 <<< 24 ||| b.toUInt32 <<< 16 ||| c.toUInt32 <<< 8 ||| d.toUInt32

theorem mask_byte (n : Nat) : n &&& 255 = n % 256 := Nat.and_two_pow_sub_one_eq_mod n 8

theorem or_eq_add (k : Nat) {high low : Nat} (below : low < 2 ^ k) :
    high * 2 ^ k ||| low = high * 2 ^ k + low := by
  rw [← Nat.shiftLeft_eq, Nat.shiftLeft_add_eq_or_of_lt below]

theorem word16_toNat (a b : UInt8) : (word16 a b).toNat = a.toNat * 256 + b.toNat := by
  have ha := a.toNat_lt
  have hb := b.toNat_lt
  have whole : (word16 a b).toNat = a.toNat * 2 ^ 8 % 2 ^ 16 ||| b.toNat := by
    simp [word16, Nat.shiftLeft_eq]
  rw [whole, Nat.mod_eq_of_lt (by omega), or_eq_add 8 hb]
  rfl

theorem word32_toNat (a b c d : UInt8) :
    (word32 a b c d).toNat = ((a.toNat * 256 + b.toNat) * 256 + c.toNat) * 256 + d.toNat := by
  have ha := a.toNat_lt
  have hb := b.toNat_lt
  have hc := c.toNat_lt
  have hd := d.toNat_lt
  have whole : (word32 a b c d).toNat = a.toNat * 2 ^ 24 % 2 ^ 32 ||| b.toNat * 2 ^ 16 % 2 ^ 32 |||
      c.toNat * 2 ^ 8 % 2 ^ 32 ||| d.toNat := by
    simp [word32, Nat.shiftLeft_eq]
  rw [whole, Nat.mod_eq_of_lt (by omega), Nat.mod_eq_of_lt (by omega), Nat.mod_eq_of_lt (by omega),
    or_eq_add 24 (by omega),
    show a.toNat * 2 ^ 24 + b.toNat * 2 ^ 16 = (a.toNat * 256 + b.toNat) * 2 ^ 16 by omega,
    or_eq_add 16 (by omega),
    show (a.toNat * 256 + b.toNat) * 2 ^ 16 + c.toNat * 2 ^ 8 =
      ((a.toNat * 256 + b.toNat) * 256 + c.toNat) * 2 ^ 8 by omega,
    or_eq_add 8 hd]
  rfl

/-- The same words as signed numbers. -/
theorem word16_toInt (a b : UInt8) :
    (word16 a b).toInt16.toInt = let value := a.toNat * 256 + b.toNat
      if value < 2 ^ 15 then (value : Int) else value - 2 ^ 16 := by
  have bits : (word16 a b).toInt16.toInt = (word16 a b).toBitVec.toInt := rfl
  rw [bits, BitVec.toInt_eq_toNat_cond, UInt16.toNat_toBitVec, ← word16_toNat]
  dsimp only
  split <;> split <;> omega

theorem word32_toInt (a b c d : UInt8) :
    (word32 a b c d).toInt32.toInt =
      let value := ((a.toNat * 256 + b.toNat) * 256 + c.toNat) * 256 + d.toNat
      if value < 2 ^ 31 then (value : Int) else value - 2 ^ 32 := by
  have bits : (word32 a b c d).toInt32.toInt = (word32 a b c d).toBitVec.toInt := rfl
  rw [bits, BitVec.toInt_eq_toNat_cond, UInt32.toNat_toBitVec, ← word32_toNat]
  dsimp only
  split <;> split <;> omega

/-- The bytes of a word, as remainders of its value. -/
theorem bytes16_toNat (word : UInt16) :
    (bytes16 word).map UInt8.toNat = [word.toNat / 256 % 256, word.toNat % 256] := by
  simp [bytes16, Nat.shiftRight_eq_div_pow, mask_byte]

theorem bytes32_toNat (word : UInt32) :
    (bytes32 word).map UInt8.toNat =
      [word.toNat / 2 ^ 24 % 256, word.toNat / 2 ^ 16 % 256, word.toNat / 256 % 256,
        word.toNat % 256] := by
  simp [bytes32, Nat.shiftRight_eq_div_pow, mask_byte]

theorem bytes_injective {xs ys : List UInt8} (same : xs.map UInt8.toNat = ys.map UInt8.toNat) :
    xs = ys :=
  (List.map_inj_right (fun _ _ => UInt8.toNat_inj.mp)).mp same

theorem bytes16_word16 (a b : UInt8) : bytes16 (word16 a b) = [a, b] := by
  have ha := a.toNat_lt
  have hb := b.toNat_lt
  apply bytes_injective
  rw [bytes16_toNat, word16_toNat]
  simp only [List.map_cons, List.map_nil, List.cons.injEq, and_true]
  constructor <;> omega

theorem bytes32_word32 (a b c d : UInt8) : bytes32 (word32 a b c d) = [a, b, c, d] := by
  have ha := a.toNat_lt
  have hb := b.toNat_lt
  have hc := c.toNat_lt
  have hd := d.toNat_lt
  apply bytes_injective
  rw [bytes32_toNat, word32_toNat]
  simp only [List.map_cons, List.map_nil, List.cons.injEq, and_true]
  refine ⟨?_, ?_, ?_, ?_⟩ <;> omega

theorem word16_bytes16 {word : UInt16} {a b : UInt8} (h : bytes16 word = [a, b]) :
    word16 a b = word := by
  have bound := word.toNat_lt
  have digits := bytes16_toNat word
  rw [h] at digits
  simp only [List.map_cons, List.map_nil, List.cons.injEq, and_true] at digits
  apply UInt16.toNat_inj.mp
  rw [word16_toNat]
  omega

theorem word32_bytes32 {word : UInt32} {a b c d : UInt8} (h : bytes32 word = [a, b, c, d]) :
    word32 a b c d = word := by
  have bound := word.toNat_lt
  have digits := bytes32_toNat word
  rw [h] at digits
  simp only [List.map_cons, List.map_nil, List.cons.injEq, and_true] at digits
  apply UInt32.toNat_inj.mp
  rw [word32_toNat]
  omega

end BigEndian
