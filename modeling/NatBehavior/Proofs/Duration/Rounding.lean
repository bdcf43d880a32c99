import Mathlib.Algebra.Order.Field.Basic
import Mathlib.Data.Rat.Cast.Order
import Mathlib.Tactic.FieldSimp
import Mathlib.Tactic.Linarith
import Mathlib.Tactic.NormNum
import Mathlib.Tactic.Positivity
import Mathlib.Tactic.Ring
import NatBehavior.Duration.Rounding

/-! Rounding as a relation between rational numbers and what they are rounded to, and how far a
double lies from the number it stands for. -/
namespace NatBehavior

variable {num den : ℕ}

/-- The whole number is the nearest to the rational one, and the even one of two that are. -/
structure RoundsTo (r : ℚ) (q : ℕ) : Prop where
  near : |(q : ℚ) - r| ≤ 1 / 2
  even : |(q : ℚ) - r| = 1 / 2 → Even q

/-- Rounding keeps the order. Two halves of one gap go to the same number, since two neighbours are
not both even. -/
theorem RoundsTo.le_of_le {r r' : ℚ} {q q' : ℕ} (h : RoundsTo r q) (h' : RoundsTo r' q')
    (hle : r ≤ r') : q ≤ q' := by
  by_contra hlt
  have hgap : (q' : ℚ) + 1 ≤ q := by exact_mod_cast Nat.lt_of_not_le hlt
  have hq := (abs_le.mp h.near).2
  have hq' := (abs_le.mp h'.near).1
  have heven : Even q := h.even (by rw [abs_of_nonneg] <;> linarith)
  have heven' : Even q' := h'.even (by rw [abs_of_nonpos] <;> linarith)
  have hnext : q = q' + 1 := by
    have : (q : ℚ) = q' + 1 := by linarith
    exact_mod_cast this
  exact Nat.not_even_iff_odd.mpr heven'.add_one (hnext ▸ heven)

theorem RoundsTo.unique {r : ℚ} {q q' : ℕ} (h : RoundsTo r q) (h' : RoundsTo r q') : q = q' :=
  Nat.le_antisymm (h.le_of_le h' le_rfl) (h'.le_of_le h le_rfl)

theorem even_roundDiv (h : 0 < den)
    (tie : 2 * roundDiv num den * den = 2 * num + den ∨
      2 * roundDiv num den * den + den = 2 * num) : Even (roundDiv num den) := by
  have hq := Nat.div_add_mod num den
  have hc : den * (num / den) = num / den * den := Nat.mul_comm _ _
  have hr := Nat.mod_lt num h
  rw [Nat.even_iff]
  rw [Nat.mul_assoc] at tie
  simp only [roundDiv] at tie ⊢
  split at tie
  · omega
  split at tie
  · rw [Nat.add_mul] at tie
    omega
  · rw [if_neg ‹_›, if_neg ‹_›]
    omega

theorem roundsTo_roundDiv (h : 0 < den) : RoundsTo (num / den) (roundDiv num den) := by
  have hden : (0 : ℚ) < den := by exact_mod_cast h
  have hdist : (roundDiv num den : ℚ) - num / den =
      (2 * roundDiv num den * den - 2 * num) / (2 * den) := by
    field_simp
  have htwice : (0 : ℚ) < 2 * den := by positivity
  constructor
  · have ⟨hlow, hhigh⟩ : 2 * num ≤ 2 * roundDiv num den * den + den ∧
        2 * roundDiv num den * den ≤ 2 * num + den := roundDiv_bounds h
    have hlow' : (2 * num : ℚ) ≤ 2 * roundDiv num den * den + den := by exact_mod_cast hlow
    have hhigh' : (2 * roundDiv num den * den : ℚ) ≤ 2 * num + den := by exact_mod_cast hhigh
    have habs : |(2 * roundDiv num den * den - 2 * num : ℚ)| ≤ den :=
      abs_le.mpr ⟨by linarith, by linarith⟩
    rw [hdist, abs_div, abs_of_pos htwice, div_le_div_iff₀ htwice two_pos]
    linarith
  · intro htie
    rw [hdist, abs_div, abs_of_pos htwice, div_eq_div_iff htwice.ne' two_ne_zero] at htie
    apply even_roundDiv h
    rcases abs_cases (2 * roundDiv num den * den - 2 * num : ℚ) with ⟨habs, -⟩ | ⟨habs, -⟩
    · have : (2 * roundDiv num den * den : ℚ) = 2 * num + den := by linarith
      exact .inl (by exact_mod_cast this)
    · have : (2 * roundDiv num den * den + den : ℚ) = 2 * num := by linarith
      exact .inr (by exact_mod_cast this)

namespace Dyadic

def value (x : Dyadic) : ℚ := x.m / 2 ^ x.k

/-- The dyadic number is the double nearest to the rational one, which is not negative: as many
binary places as give it 53 significant digits, and the nearest at so many places. -/
def IsDouble (x : Dyadic) (r : ℚ) : Prop :=
  r = 0 ∧ x.m = 0 ∨ 2 ^ 52 ≤ r * 2 ^ x.k ∧ r * 2 ^ x.k < 2 ^ 53 ∧ RoundsTo (r * 2 ^ x.k) x.m

/-- The first guess at the places is right, or one too many. -/
theorem guess_bounds (hnum : 0 < num) (hden : 0 < den) (h : num < 2 ^ 53 * den) :
    2 ^ 52 * den ≤ num * 2 ^ (53 + den.log2 - num.log2) ∧
    num * 2 ^ (53 + den.log2 - num.log2) < 2 ^ 54 * den := by
  have hnum₁ := Nat.log2_self_le hnum.ne'
  have hnum₂ := Nat.lt_log2_self (n := num)
  have hden₁ := Nat.log2_self_le hden.ne'
  have hden₂ := Nat.lt_log2_self (n := den)
  generalize hk : 53 + den.log2 - num.log2 = k
  have hdigits : num.log2 < 54 + den.log2 := by
    apply (Nat.pow_lt_pow_iff_right (a := 2) (by decide)).mp
    calc 2 ^ num.log2 ≤ num := hnum₁
      _ < 2 ^ 53 * den := h
      _ < 2 ^ 53 * 2 ^ (den.log2 + 1) := Nat.mul_lt_mul_of_pos_left hden₂ (by decide)
      _ = 2 ^ (54 + den.log2) := by rw [← Nat.pow_add]; congr 1; omega
  have hsum : num.log2 + k = 53 + den.log2 := by omega
  constructor
  · calc 2 ^ 52 * den ≤ 2 ^ 52 * 2 ^ (den.log2 + 1) := Nat.mul_le_mul_left _ hden₂.le
      _ = 2 ^ (num.log2 + k) := by rw [← Nat.pow_add, hsum]; congr 1; omega
      _ = 2 ^ num.log2 * 2 ^ k := Nat.pow_add ..
      _ ≤ num * 2 ^ k := Nat.mul_le_mul_right _ hnum₁
  · calc num * 2 ^ k < 2 ^ (num.log2 + 1) * 2 ^ k :=
          Nat.mul_lt_mul_of_pos_right hnum₂ (Nat.two_pow_pos k)
      _ = 2 ^ (num.log2 + k + 1) := by rw [← Nat.pow_add]; congr 1; omega
      _ = 2 ^ 54 * 2 ^ den.log2 := by rw [hsum, ← Nat.pow_add]; congr 1; omega
      _ ≤ 2 ^ 54 * den := Nat.mul_le_mul_left _ hden₁

/-- At that many places a positive quotient has 53 binary digits before the point. -/
theorem places_bounds (hnum : 0 < num) (hden : 0 < den) (h : num < 2 ^ 53 * den) :
    2 ^ 52 * den ≤ num * 2 ^ places num den ∧ num * 2 ^ places num den < 2 ^ 53 * den := by
  obtain ⟨hlow, hhigh⟩ := guess_bounds hnum hden h
  simp only [places, Nat.shiftLeft_eq, Nat.div_lt_iff_lt_mul hden]
  split
  · exact ⟨hlow, ‹_›⟩
  · rename_i hmany
    cases hk : 53 + den.log2 - num.log2 with
    | zero => rw [hk] at hmany; omega
    | succ k =>
      rw [hk, Nat.pow_succ, ← Nat.mul_assoc] at hhigh hmany
      rw [Nat.add_sub_cancel]
      omega

theorem nearest_isDouble (hden : 0 < den) (h : num < 2 ^ 53 * den) :
    (nearest num den).IsDouble (num / den) := by
  rw [nearest]
  split
  · rename_i hzero
    exact .inl ⟨by simp [hzero], rfl⟩
  · rename_i hnum
    obtain ⟨hlow, hhigh⟩ := places_bounds (Nat.pos_of_ne_zero hnum) hden h
    have hden' : (0 : ℚ) < den := by exact_mod_cast hden
    have hscale : (num / den : ℚ) * 2 ^ places num den =
        (num <<< places num den : ℕ) / den := by
      rw [Nat.shiftLeft_eq, Nat.cast_mul, Nat.cast_pow, Nat.cast_ofNat, div_mul_eq_mul_div]
    rw [IsDouble, hscale]
    refine .inr ⟨?_, ?_, roundsTo_roundDiv hden⟩
    · rw [le_div_iff₀ hden', Nat.shiftLeft_eq]
      exact_mod_cast hlow
    · rw [div_lt_iff₀ hden', Nat.shiftLeft_eq]
      exact_mod_cast hhigh

theorem addNat_isDouble {n : ℕ} {x : Dyadic} (h : n + x.value < 2 ^ 53) :
    (addNat n x).IsDouble (n + x.value) := by
  have hpow : (0 : ℚ) < 2 ^ x.k := by positivity
  have hsum : (n + x.value : ℚ) = (n <<< x.k + x.m : ℕ) / (1 <<< x.k : ℕ) := by
    rw [value, Nat.shiftLeft_eq, Nat.shiftLeft_eq, Nat.one_mul]
    push_cast
    field_simp
  rw [hsum] at h ⊢
  have hden : 0 < 1 <<< x.k := by rw [Nat.one_shiftLeft]; exact Nat.two_pow_pos _
  apply nearest_isDouble hden
  rw [div_lt_iff₀ (by exact_mod_cast hden)] at h
  exact_mod_cast h

/-- A double is off by one part in 2^53 at most. -/
theorem IsDouble.abs_value_sub_le {r : ℚ} {x : Dyadic} (h : x.IsDouble r) :
    |x.value - r| ≤ r / 2 ^ 53 := by
  rcases h with ⟨hr, hx⟩ | ⟨hlow, -, hround⟩
  · rw [value, hr, hx]
    norm_num
  · have hpow : (0 : ℚ) < 2 ^ x.k := by positivity
    have hscale : x.value - r = (x.m - r * 2 ^ x.k) / 2 ^ x.k := by
      rw [value]
      field_simp
    rw [hscale, abs_div, abs_of_pos hpow, div_le_div_iff₀ hpow (by positivity)]
    have := hround.near
    linarith

theorem tenths_roundsTo (x : Dyadic) : RoundsTo (10 * x.value) x.tenths := by
  have hvalue : (10 * x.value : ℚ) = (x.m * 10 : ℕ) / (1 <<< x.k : ℕ) := by
    rw [value, Nat.one_shiftLeft]
    push_cast
    ring
  rw [hvalue]
  apply roundsTo_roundDiv
  rw [Nat.one_shiftLeft]
  exact Nat.two_pow_pos _

end Dyadic

end NatBehavior
