import Mathlib.Algebra.CharP.Two
import Mathlib.Algebra.Field.ZMod
import Mathlib.Algebra.Polynomial.FieldDivision
import Mathlib.RingTheory.AdjoinRoot
import Mathlib.Tactic.ComputeDegree
import NatBehavior.Proofs.Checksum

/-! The checksum as a remainder of polynomials over the field of two elements. Bits are
coefficients, the first of them at the highest power, and a register stands for its bits from the
lowest on. Then shifting a bit out of the register multiplies its residue by the variable, so a
register that took in a string stands for the remainder of what it held before with the string
behind it. -/
namespace NatBehavior.Checksum

open Polynomial

/-! ### Bits as coefficients -/

/-- The bits of a number below a width, lowest first. -/
def lowBits (width n : Nat) : List Bool := (List.range width).map n.testBit

/-- The bits of a string byte by byte, least significant first. -/
def bits (bytes : Bytes) : List Bool := bytes.flatMap fun byte => lowBits 8 byte.toNat

/-- The polynomial of some bits, the first at the highest power. -/
noncomputable def bitPolynomial : List Bool → (ZMod 2)[X]
  | [] => 0
  | bit :: bits => C (bit.toNat : ZMod 2) * X ^ bits.length + bitPolynomial bits

@[simp] theorem length_lowBits (width n : Nat) : (lowBits width n).length = width := by
  simp [lowBits]

@[simp] theorem length_bits (bytes : Bytes) : (bits bytes).length = 8 * bytes.length := by
  induction bytes with
  | nil => rfl
  | cons byte bytes ih =>
    rw [bits, List.flatMap_cons, List.length_append, length_lowBits, ← bits, ih, List.length_cons]
    omega

theorem lowBits_succ_cons (width n : Nat) :
    lowBits (width + 1) n = n.testBit 0 :: lowBits width (n / 2) := by
  rw [lowBits, List.range_succ_eq_map, List.map_cons, List.map_map]
  congr 1
  exact List.map_congr_left fun i _ => Nat.testBit_succ n i

theorem lowBits_succ_append (width n : Nat) :
    lowBits (width + 1) n = lowBits width n ++ [n.testBit width] := by
  rw [lowBits, List.range_succ, List.map_append]
  rfl

theorem bitPolynomial_append (xs ys : List Bool) :
    bitPolynomial (xs ++ ys) = bitPolynomial xs * X ^ ys.length + bitPolynomial ys := by
  induction xs with
  | nil => rw [List.nil_append, bitPolynomial, zero_mul, zero_add]
  | cons bit xs ih =>
    rw [List.cons_append, bitPolynomial, ih, bitPolynomial, List.length_append]
    ring

/-- Ones alone are all the powers below their number. -/
theorem bitPolynomial_replicate_true (n : Nat) :
    bitPolynomial (List.replicate n true) = ∑ i ∈ Finset.range n, X ^ i := by
  induction n with
  | zero => rfl
  | succ n ih =>
    rw [List.replicate_succ, bitPolynomial, ih, List.length_replicate, Finset.sum_range_succ,
      Bool.toNat_true, Nat.cast_one, C_1, one_mul, add_comm]

theorem bitPolynomial_lowBits_succ (width n : Nat) :
    bitPolynomial (lowBits (width + 1) n) =
      bitPolynomial (lowBits width n) * X + C ((n.testBit width).toNat : ZMod 2) := by
  rw [lowBits_succ_append, bitPolynomial_append]
  simp [bitPolynomial]

theorem coeff_bitPolynomial_lowBits (width n k : Nat) :
    (bitPolynomial (lowBits width n)).coeff k =
      if k < width then ((n.testBit (width - 1 - k)).toNat : ZMod 2) else 0 := by
  induction width generalizing k with
  | zero => rfl
  | succ width ih =>
    rw [bitPolynomial_lowBits_succ, coeff_add]
    cases k with
    | zero => simp
    | succ k =>
      rw [coeff_mul_X, coeff_C_succ, add_zero, ih]
      have hindex : width + 1 - 1 - (k + 1) = width - 1 - k := by omega
      simp only [hindex, Nat.succ_lt_succ_iff]

theorem degree_bitPolynomial_lowBits_lt (width n : Nat) :
    (bitPolynomial (lowBits width n)).degree < width := by
  refine (degree_lt_iff_coeff_zero _ _).mpr fun k hk => ?_
  rw [coeff_bitPolynomial_lowBits, if_neg (Nat.not_lt.mpr hk)]

theorem cast_toNat_xor (a b : Bool) :
    ((a ^^ b).toNat : ZMod 2) = (a.toNat : ZMod 2) + (b.toNat : ZMod 2) := by
  cases a <;> cases b <;> decide

/-- Exclusive or adds. -/
theorem bitPolynomial_lowBits_xor (width x y : Nat) :
    bitPolynomial (lowBits width (x ^^^ y)) =
      bitPolynomial (lowBits width x) + bitPolynomial (lowBits width y) := by
  induction width with
  | zero => exact (add_zero 0).symm
  | succ width ih =>
    simp only [bitPolynomial_lowBits_succ, ih, Nat.testBit_xor, cast_toNat_xor, C_add]
    ring

/-- Bits that are not there add nothing. -/
theorem bitPolynomial_lowBits_of_lt {width n : Nat} (extra : Nat) (h : n < 2 ^ width) :
    bitPolynomial (lowBits (width + extra) n) = bitPolynomial (lowBits width n) * X ^ extra := by
  induction extra with
  | zero => rw [Nat.add_zero, pow_zero, mul_one]
  | succ extra ih =>
    have hbit : n.testBit (width + extra) = false :=
      Nat.testBit_lt_two_pow (h.trans_le (Nat.pow_le_pow_right (by decide) (by omega)))
    rw [← Nat.add_assoc, bitPolynomial_lowBits_succ, ih, hbit, pow_succ]
    simp [mul_assoc]

/-! ### The register as a residue -/

/-- What the checksum divides by. -/
noncomputable def divisor : (ZMod 2)[X] :=
  X ^ 32 + X ^ 26 + X ^ 23 + X ^ 22 + X ^ 16 + X ^ 12 + X ^ 11 + X ^ 10 + X ^ 8 + X ^ 7 + X ^ 5 +
    X ^ 4 + X ^ 2 + X + 1

/-- The polynomial that a register stands for. -/
noncomputable def registerPolynomial (register : UInt32) : (ZMod 2)[X] :=
  bitPolynomial (lowBits 32 register.toNat)

theorem monic_divisor : divisor.Monic := by
  unfold divisor
  monicity!

theorem degree_divisor : divisor.degree = 32 := by
  unfold divisor
  compute_degree!

theorem registerPolynomial_xor (x y : UInt32) :
    registerPolynomial (x ^^^ y) = registerPolynomial x + registerPolynomial y := by
  rw [registerPolynomial, UInt32.toNat_xor, bitPolynomial_lowBits_xor]
  rfl

/-- The divisor without its highest power is the word that shifting adds. -/
theorem X_pow_add_registerPolynomial_polynomial :
    X ^ 32 + registerPolynomial polynomial = divisor := by
  have hbits : lowBits 32 polynomial.toNat =
      [false, false, false, false, false, true, false, false, true, true, false, false, false,
        false, false, true, false, false, false, true, true, true, false, true, true, false, true,
        true, false, true, true, true] := by decide
  rw [registerPolynomial, hbits, divisor]
  simp only [bitPolynomial, List.length_cons, List.length_nil, Bool.toNat_true, Bool.toNat_false,
    Nat.cast_one, Nat.cast_zero, C_1, C_0]
  ring

/-- Moving the bits down multiplies by the variable, but for the bit that falls out. -/
theorem registerPolynomial_shiftRight (register : UInt32) :
    C ((register.toNat.testBit 0).toNat : ZMod 2) * X ^ 32 + registerPolynomial (register >>> 1) =
      X * registerPolynomial register := by
  have hlt := register.toNat_lt
  have hwide : bitPolynomial (lowBits (31 + 1) (register.toNat / 2)) =
      bitPolynomial (lowBits 31 (register.toNat / 2)) * X ^ 1 :=
    bitPolynomial_lowBits_of_lt 1 (by omega)
  have hsplit : bitPolynomial (lowBits (31 + 1) register.toNat) =
      C ((register.toNat.testBit 0).toNat : ZMod 2) * X ^ 31 +
        bitPolynomial (lowBits 31 (register.toNat / 2)) := by
    rw [lowBits_succ_cons, bitPolynomial, length_lowBits]
  rw [registerPolynomial, toNat_shiftRight_one, hwide, registerPolynomial, hsplit]
  ring

/-- Where a bit falls out its power is 32, which the word that is added makes a multiple of the
divisor. -/
theorem registerPolynomial_shift (register : UInt32) :
    registerPolynomial (shift register) = X * registerPolynomial register +
      C ((register.toNat.testBit 0).toNat : ZMod 2) * divisor := by
  have hright := registerPolynomial_shiftRight register
  unfold shift
  split
  · rename_i hodd
    have hbit : register.toNat.testBit 0 = true := by
      rw [Nat.testBit_zero]
      exact decide_eq_true ((and_one_eq_one_iff register).mp hodd)
    rw [hbit, Bool.toNat_true, Nat.cast_one, C_1, one_mul] at hright ⊢
    -- the power 32 that fell out stands twice, in the divisor and for itself
    have htwo : (2 : (ZMod 2)[X]) = 0 := CharTwo.two_eq_zero
    rw [registerPolynomial_xor]
    linear_combination hright + X_pow_add_registerPolynomial_polynomial - X ^ 32 * htwo
  · rename_i heven
    have hbit : register.toNat.testBit 0 = false := by
      rw [Nat.testBit_zero]
      exact decide_eq_false (mt (and_one_eq_one_iff register).mpr heven)
    simpa [hbit] using hright

/-- The residue that a register stands for. -/
noncomputable def residue (register : UInt32) : AdjoinRoot divisor :=
  AdjoinRoot.mk divisor (registerPolynomial register)

theorem residue_xor (x y : UInt32) : residue (x ^^^ y) = residue x + residue y := by
  rw [residue, registerPolynomial_xor, map_add]
  rfl

theorem residue_shift (register : UInt32) :
    residue (shift register) = AdjoinRoot.root divisor * residue register := by
  rw [residue, registerPolynomial_shift, map_add, map_mul, map_mul, AdjoinRoot.mk_X,
    AdjoinRoot.mk_self, mul_zero, add_zero]
  rfl

theorem residue_repeat_shift (n : Nat) (register : UInt32) :
    residue (Nat.repeat shift n register) = AdjoinRoot.root divisor ^ n * residue register := by
  induction n with
  | zero => rw [Nat.repeat, pow_zero, one_mul]
  | succ n ih => rw [Nat.repeat, residue_shift, ih, pow_succ', mul_assoc]

/-- A byte stands at the high powers of the register, and so 32 places above its own. -/
theorem residue_step (register : UInt32) (byte : UInt8) :
    residue (step register byte) =
      AdjoinRoot.root divisor ^ 8 * residue register +
        AdjoinRoot.root divisor ^ 32 *
          AdjoinRoot.mk divisor (bitPolynomial (lowBits 8 byte.toNat)) := by
  have hbyte : registerPolynomial byte.toUInt32 =
      bitPolynomial (lowBits 8 byte.toNat) * X ^ 24 := by
    rw [registerPolynomial, UInt8.toNat_toUInt32]
    exact bitPolynomial_lowBits_of_lt 24 byte.toNat_lt
  rw [step, residue_repeat_shift, residue_xor, residue, residue, hbyte, map_mul, map_pow,
    AdjoinRoot.mk_X]
  ring

/-- Taking in a string puts the register in front of it, the string 32 places above its own. -/
theorem residue_feed (register : UInt32) (bytes : Bytes) :
    residue (feed register bytes) =
      AdjoinRoot.root divisor ^ (8 * bytes.length) * residue register +
        AdjoinRoot.root divisor ^ 32 * AdjoinRoot.mk divisor (bitPolynomial (bits bytes)) := by
  -- the first byte leaves another register to the rest
  induction bytes generalizing register with
  | nil => simp [bits, bitPolynomial]
  | cons byte bytes ih =>
    have hbits : bitPolynomial (bits (byte :: bytes)) =
        bitPolynomial (lowBits 8 byte.toNat) * X ^ (8 * bytes.length) +
          bitPolynomial (bits bytes) := by
      rw [← length_bits bytes, ← bitPolynomial_append]
      rfl
    calc residue (feed register (byte :: bytes))
        = AdjoinRoot.root divisor ^ (8 * bytes.length) * residue (step register byte) +
            AdjoinRoot.root divisor ^ 32 * AdjoinRoot.mk divisor (bitPolynomial (bits bytes)) :=
          ih (step register byte)
      _ = AdjoinRoot.root divisor ^ (8 * (byte :: bytes).length) * residue register +
            AdjoinRoot.root divisor ^ 32 *
              AdjoinRoot.mk divisor (bitPolynomial (bits (byte :: bytes))) := by
          rw [residue_step, hbits, map_add, map_mul, map_pow, AdjoinRoot.mk_X, List.length_cons]
          ring

/-! ### The remainder as a word -/

/-- The word of the coefficients below the power 32, the highest power in the lowest bit. -/
noncomputable def reversed (p : (ZMod 2)[X]) : UInt32 :=
  (Nat.ofBits fun i : Fin 32 => decide (p.coeff (31 - i) = 1)).toUInt32

theorem reversed_registerPolynomial (register : UInt32) :
    reversed (registerPolynomial register) = register := by
  have hbit (i : Fin 32) :
      decide ((registerPolynomial register).coeff (31 - i) = 1) = register.toNat.testBit i := by
    have hindex : 32 - 1 - (31 - i.val) = i := by omega
    rw [registerPolynomial, coeff_bitPolynomial_lowBits, if_pos (by omega), hindex]
    cases register.toNat.testBit i <;> decide
  have hbits : (Nat.ofBits fun i : Fin 32 => register.toNat.testBit i) = register.toNat := by
    rw [Nat.ofBits_testBit, Nat.mod_eq_of_lt register.toNat_lt]
  simp only [reversed, hbit, hbits]
  exact UInt32.ofNat_toNat

/-- A register is the remainder of every polynomial with its residue. -/
theorem mod_divisor_eq_registerPolynomial {p : (ZMod 2)[X]} {register : UInt32}
    (h : AdjoinRoot.mk divisor p = residue register) :
    p % divisor = registerPolynomial register := by
  have hdegree : (registerPolynomial register).degree < divisor.degree := by
    rw [degree_divisor]
    exact degree_bitPolynomial_lowBits_lt 32 register.toNat
  rw [← modByMonic_eq_mod p monic_divisor,
    modByMonic_eq_of_dvd_sub monic_divisor (AdjoinRoot.mk_eq_mk.mp h),
    (modByMonic_eq_self_iff monic_divisor).mpr hdegree]

theorem registerPolynomial_preset : registerPolynomial preset = ∑ i ∈ Finset.range 32, X ^ i :=
  bitPolynomial_replicate_true 32

/-- The checksum is the complement of the reversed remainder of the string moved up by 32 places,
with 32 ones added at its highest powers. -/
theorem crc32_eq_reversed_remainder (bytes : Bytes) :
    crc32 bytes = ~~~reversed ((bitPolynomial (bits bytes) * X ^ 32 +
      (∑ i ∈ Finset.range 32, X ^ i) * X ^ (8 * bytes.length)) % divisor) := by
  have hresidue : AdjoinRoot.mk divisor (bitPolynomial (bits bytes) * X ^ 32 +
      (∑ i ∈ Finset.range 32, X ^ i) * X ^ (8 * bytes.length)) = residue (feed preset bytes) := by
    rw [residue_feed, residue, registerPolynomial_preset]
    simp only [map_add, map_mul, map_pow, AdjoinRoot.mk_X]
    ring
  rw [mod_divisor_eq_registerPolynomial hresidue, reversed_registerPolynomial]
  rfl

example : crc32 [0x31, 0x32, 0x33, 0x34, 0x35, 0x36, 0x37, 0x38, 0x39] = 0xCBF43926 := by cbv

end NatBehavior.Checksum
