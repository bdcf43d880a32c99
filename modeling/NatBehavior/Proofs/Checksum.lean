import Mathlib.Data.Nat.Bitwise
import Mathlib.Data.Nat.Digits.Defs
import NatBehavior.Checksum

/-! What the checksum detects. Shifting a bit out of the register is linear in exclusive or and
loses nothing, since the highest bit tells whether the polynomial was added. Up to four bytes act on
the register as one word, so two strings that differ in that many bytes in a row leave different
registers. -/
namespace NatBehavior.Checksum

/-! ### One bit -/

theorem and_one_eq_one_iff (w : UInt32) : w &&& 1 = 1 ↔ w.toNat % 2 = 1 := by
  rw [← UInt32.toNat_inj, UInt32.toNat_and]
  exact iff_of_eq (congrArg (· = 1) (Nat.and_one_is_mod w.toNat))

theorem shift_xor (x y : UInt32) : shift (x ^^^ y) = shift x ^^^ shift y := by
  unfold shift
  simp only [and_one_eq_one_iff, UInt32.toNat_xor, Nat.xor_mod_two_eq_one, UInt32.shiftRight_xor]
  by_cases hx : x.toNat % 2 = 1
  · by_cases hy : y.toNat % 2 = 1
    · simp only [hx, hy, not_true_eq_false, if_true, if_false]
      rw [UInt32.xor_assoc, UInt32.xor_comm (y >>> 1), ← UInt32.xor_assoc polynomial,
        UInt32.xor_self, UInt32.zero_xor]
    · simp only [hx, hy, iff_false, not_true_eq_false, not_false_eq_true, if_true, if_false]
      rw [UInt32.xor_assoc, UInt32.xor_comm (y >>> 1), ← UInt32.xor_assoc]
  · by_cases hy : y.toNat % 2 = 1
    · simp only [hx, hy, iff_true, not_false_eq_true, if_true, if_false]
      rw [UInt32.xor_assoc]
    · simp only [hx, hy, not_true_eq_false, if_false]

theorem toNat_shiftRight_one (w : UInt32) : (w >>> 1).toNat = w.toNat / 2 := by
  rw [UInt32.toNat_shiftRight]
  exact Nat.shiftRight_eq_div_pow _ 1

theorem eq_zero_of_shift_eq_zero {w : UInt32} (h : shift w = 0) : w = 0 := by
  have hlt := w.toNat_lt
  have hright := toNat_shiftRight_one w
  apply UInt32.toNat_inj.mp
  unfold shift at h
  split at h
  · rw [UInt32.xor_eq_zero_iff.mp h] at hright
    have htop : polynomial.toNat = 3988292384 := rfl
    omega
  · rename_i hodd
    rw [and_one_eq_one_iff] at hodd
    rw [h, UInt32.toNat_zero] at hright
    rw [UInt32.toNat_zero]
    omega

theorem shift_injective : Function.Injective shift := by
  intro x y h
  refine UInt32.xor_eq_zero_iff.mp (eq_zero_of_shift_eq_zero ?_)
  rw [shift_xor, h, UInt32.xor_self]

theorem toNat_toUInt32 {n : Nat} (h : n < 4294967296) : n.toUInt32.toNat = n :=
  UInt32.toNat_ofNat_of_lt' h

/-- A word with a zero at the low end is only moved. -/
theorem shift_two_mul {n : Nat} (h : n < 2147483648) : shift (2 * n).toUInt32 = n.toUInt32 := by
  have hnat : (2 * n).toUInt32.toNat = 2 * n := toNat_toUInt32 (by omega)
  have heven : ¬ (2 * n).toUInt32 &&& 1 = 1 := by
    rw [and_one_eq_one_iff, hnat]
    omega
  rw [shift, if_neg heven]
  apply UInt32.toNat_inj.mp
  rw [toNat_shiftRight_one, hnat, toNat_toUInt32 (by omega)]
  omega

/-! ### Several bits -/

theorem repeat_shift_xor (n : Nat) (x y : UInt32) :
    Nat.repeat shift n (x ^^^ y) = Nat.repeat shift n x ^^^ Nat.repeat shift n y := by
  induction n with
  | zero => rfl
  | succ n ih => rw [Nat.repeat, ih, shift_xor, Nat.repeat, Nat.repeat]

theorem repeat_shift_injective (n : Nat) : Function.Injective (Nat.repeat shift n) := by
  induction n with
  | zero => exact fun _ _ h => h
  | succ n ih => exact fun _ _ h => ih (shift_injective h)

theorem repeat_shift_add (m n : Nat) (w : UInt32) :
    Nat.repeat shift (m + n) w = Nat.repeat shift m (Nat.repeat shift n w) := by
  induction m with
  | zero => rw [Nat.zero_add, Nat.repeat]
  | succ m ih => rw [Nat.succ_add, Nat.repeat, ih, Nat.repeat]

theorem repeat_shift_eight_mul {n : Nat} (h : n < 16777216) :
    Nat.repeat shift 8 (256 * n).toUInt32 = n.toUInt32 := by
  have hsplit : 256 * n = 2 * (2 * (2 * (2 * (2 * (2 * (2 * (2 * n))))))) := by omega
  rw [hsplit]
  simp (disch := omega) only [Nat.repeat, shift_two_mul]

/-! ### Bytes -/

theorem step_injective (byte : UInt8) : Function.Injective (step · byte) := by
  intro x y h
  exact (UInt32.xor_left_inj _).mp (repeat_shift_injective 8 h)

theorem feed_injective (bytes : Bytes) : Function.Injective (feed · bytes) := by
  induction bytes with
  | nil => exact fun _ _ h => h
  | cons byte bytes ih => exact fun _ _ h => step_injective byte (ih h)

/-- The word of a byte string, low byte first. -/
def littleEndian (bytes : Bytes) : Nat := Nat.ofDigits 256 (bytes.map UInt8.toNat)

theorem littleEndian_cons (byte : UInt8) (bytes : Bytes) :
    littleEndian (byte :: bytes) = byte.toNat + 256 * littleEndian bytes := Nat.ofDigits_cons

theorem littleEndian_lt (bytes : Bytes) : littleEndian bytes < 256 ^ bytes.length := by
  rw [littleEndian, ← List.length_map UInt8.toNat]
  refine Nat.ofDigits_lt_base_pow_length (by decide) ?_
  simpa using fun byte _ => byte.toNat_lt

theorem eq_of_littleEndian_eq {xs ys : Bytes} (hlength : xs.length = ys.length)
    (h : littleEndian xs = littleEndian ys) : xs = ys := by
  have hdigits : xs.map UInt8.toNat = ys.map UInt8.toNat :=
    Nat.ofDigits_inj_of_len_eq (by decide) (by simpa using hlength)
      (by simpa using fun byte _ => byte.toNat_lt) (by simpa using fun byte _ => byte.toNat_lt) h
  exact (List.map_inj_right fun _ _ => UInt8.toNat_inj.mp).mp hdigits

/-- The low byte and those above it do not overlap. -/
theorem toUInt32_add_mul (byte : UInt8) (n : Nat) :
    (byte.toNat + 256 * n).toUInt32 = byte.toUInt32 ^^^ (256 * n).toUInt32 := by
  have hlt := byte.toNat_lt
  have hlow : (byte.toNat ^^^ 256 * n) % 256 = byte.toNat := by
    have hmod := @Nat.xor_mod_two_pow byte.toNat (256 * n) 8
    rw [show (2 : Nat) ^ 8 = 256 from rfl, Nat.mul_mod_right, Nat.xor_zero] at hmod
    omega
  have hhigh : (byte.toNat ^^^ 256 * n) / 256 = n := by
    have hdiv := @Nat.xor_div_two_pow byte.toNat (256 * n) 8
    rw [show (2 : Nat) ^ 8 = 256 from rfl, Nat.div_eq_of_lt hlt, Nat.zero_xor] at hdiv
    omega
  have hxor : byte.toNat + 256 * n = byte.toNat ^^^ 256 * n := by omega
  rw [hxor, Nat.toUInt32, UInt32.ofNat_xor, UInt32.ofNat_uInt8ToNat]

/-- Up to four bytes are taken in as one word. -/
theorem feed_eq_repeat_shift {bytes : Bytes} (h : bytes.length ≤ 4) (register : UInt32) :
    feed register bytes =
      Nat.repeat shift (8 * bytes.length) (register ^^^ (littleEndian bytes).toUInt32) := by
  induction bytes generalizing register with
  | nil => exact UInt32.xor_zero.symm
  | cons byte bytes ih =>
    rw [List.length_cons] at h
    have hlt : littleEndian bytes < 16777216 :=
      (littleEndian_lt bytes).trans_le (Nat.pow_le_pow_right (by decide) (Nat.le_of_succ_le_succ h))
    calc feed register (byte :: bytes)
        = feed (step register byte) bytes := rfl
      _ = Nat.repeat shift (8 * bytes.length)
            (step register byte ^^^ (littleEndian bytes).toUInt32) := ih (by omega) _
      _ = Nat.repeat shift (8 * bytes.length) (Nat.repeat shift 8
            (register ^^^ byte.toUInt32 ^^^ (256 * littleEndian bytes).toUInt32)) := by
          rw [repeat_shift_xor 8, repeat_shift_eight_mul hlt, step]
      _ = Nat.repeat shift (8 * (byte :: bytes).length)
            (register ^^^ (littleEndian (byte :: bytes)).toUInt32) := by
          rw [← repeat_shift_add, littleEndian_cons, toUInt32_add_mul, UInt32.xor_assoc,
            List.length_cons, Nat.mul_succ]

/-- Strings of up to four bytes are told apart. -/
theorem eq_of_feed_eq {register : UInt32} {old new : Bytes} (hlength : new.length = old.length)
    (hshort : old.length ≤ 4) (h : feed register new = feed register old) : new = old := by
  have hbound : ∀ bytes : Bytes, bytes.length ≤ 4 → littleEndian bytes < 4294967296 :=
    fun bytes hbytes => (littleEndian_lt bytes).trans_le (Nat.pow_le_pow_right (by decide) hbytes)
  rw [feed_eq_repeat_shift hshort, feed_eq_repeat_shift (hlength ▸ hshort), hlength] at h
  have hword := (UInt32.xor_right_inj register).mp (repeat_shift_injective _ h)
  rw [← UInt32.toNat_inj, toNat_toUInt32 (hbound new (hlength ▸ hshort)),
    toNat_toUInt32 (hbound old hshort)] at hword
  exact eq_of_littleEndian_eq hlength hword

/-! ### Bursts -/

/-- The second string has other bytes in place of up to four in a row of the first. -/
inductive Burst : Bytes → Bytes → Prop
  | intro (front back : Bytes) {old new : Bytes} (hlength : new.length = old.length)
      (hshort : old.length ≤ 4) (hne : new ≠ old) :
      Burst (front ++ old ++ back) (front ++ new ++ back)

theorem exists_eq_append {bytes : Bytes} {k n : Nat} (h : k + n ≤ bytes.length) :
    ∃ front middle back, bytes = front ++ middle ++ back ∧ front.length = k ∧
      middle.length = n := by
  refine ⟨bytes.take k, (bytes.drop k).take n, (bytes.drop k).drop n, ?_, ?_, ?_⟩
  · rw [List.append_assoc, List.take_append_drop, List.take_append_drop]
  · rw [List.length_take]
    omega
  · rw [List.length_take, List.length_drop]
    omega

theorem patch_length_append {front old part back : Bytes} (h : part.length = old.length) :
    (front ++ old ++ back).patch front.length part = front ++ part ++ back := by
  have htake : part.take ((front ++ old ++ back).length - front.length) = part := by
    refine List.take_of_length_le ?_
    simp only [List.length_append]
    omega
  rw [Bytes.patch, htake, h, ← List.length_append, List.drop_left, List.append_assoc front,
    List.take_left]

namespace Burst

variable {old new : Bytes}

theorem length_eq (h : Burst old new) : new.length = old.length := by
  obtain ⟨front, back, hlength, -, -⟩ := h
  simp only [List.length_append, hlength]

theorem ne (h : Burst old new) : new ≠ old := by
  obtain ⟨front, back, -, -, hne⟩ := h
  intro hsame
  exact hne (List.append_cancel_left (List.append_cancel_right hsame))

theorem within (h : Burst old new) (front back : Bytes) :
    Burst (front ++ old ++ back) (front ++ new ++ back) := by
  obtain ⟨before, after, hlength, hshort, hne⟩ := h
  have hwithin := Burst.intro (front ++ before) (after ++ back) hlength hshort hne
  simp only [List.append_assoc] at hwithin ⊢
  exact hwithin

/-- Overwriting up to four bytes within the middle of a string is a burst of the middle, unless
the same bytes are written again. -/
theorem of_patch {front middle back part : Bytes} {offset : Nat}
    (hstart : front.length ≤ offset)
    (hend : offset + part.length ≤ front.length + middle.length) (hshort : part.length ≤ 4)
    (hne : (front ++ middle ++ back).patch offset part ≠ front ++ middle ++ back) :
    ∃ changed, Burst middle changed ∧
      (front ++ middle ++ back).patch offset part = front ++ changed ++ back := by
  obtain ⟨before, lost, after, rfl, hbefore, hlost⟩ := exists_eq_append
    (by omega : offset - front.length + part.length ≤ middle.length)
  have hoffset : (front ++ before).length = offset := by
    rw [List.length_append]
    omega
  have hpatch : (front ++ (before ++ lost ++ after) ++ back).patch offset part =
      front ++ (before ++ part ++ after) ++ back := by
    have hinner : (front ++ before ++ lost ++ (after ++ back)).patch (front ++ before).length part =
        front ++ before ++ part ++ (after ++ back) := patch_length_append hlost.symm
    rw [hoffset] at hinner
    simpa only [List.append_assoc] using hinner
  refine ⟨_, .intro before after hlost.symm (hlost ▸ hshort) ?_, hpatch⟩
  rintro rfl
  exact hne hpatch

/-- A burst changes the checksum. -/
theorem crc32_ne (h : Burst old new) : crc32 new ≠ crc32 old := by
  obtain ⟨front, back, hlength, hshort, hne⟩ := h
  intro h
  rename_i before after
  have hfeed : feed (feed (feed preset front) after) back =
      feed (feed (feed preset front) before) back := by
    simpa [crc32, finish] using h
  exact hne (eq_of_feed_eq hlength hshort (feed_injective back hfeed))

end Burst

end NatBehavior.Checksum
