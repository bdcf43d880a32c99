/-! Quotients rounded to whole numbers and to 53 significant binary digits, a tie going to the
even neighbour. -/
namespace NatBehavior

/-- The whole number nearest to a quotient, a half going to the even neighbour. -/
def roundDiv (num den : Nat) : Nat :=
  let q := num / den
  let twice := 2 * (num % den)
  if twice < den then q
  else if den < twice then q + 1
  else q + q % 2

/-- The number m / 2^k. -/
structure Dyadic where
  m : Nat
  k : Nat
deriving DecidableEq, Repr

namespace Dyadic

/-- How many binary places give a positive quotient 53 significant digits. The quotient must lie
below 2^53. -/
def places (num den : Nat) : Nat :=
  let k := 53 + den.log2 - num.log2
  if (num <<< k) / den < 9007199254740992 then k else k - 1

/-- The double nearest to a quotient below 2^53. -/
def nearest (num den : Nat) : Dyadic :=
  if num = 0 then ⟨0, 0⟩
  else
    let k := places num den
    ⟨roundDiv (num <<< k) den, k⟩

/-- The double nearest to the sum of a whole number and a dyadic one. -/
def addNat (n : Nat) (x : Dyadic) : Dyadic :=
  nearest (n <<< x.k + x.m) (1 <<< x.k)

/-- The number in tenths, rounded to a whole number of them. -/
def tenths (x : Dyadic) : Nat := roundDiv (x.m * 10) (1 <<< x.k)

end Dyadic

/-- A tie goes to the even neighbour, and everything else to the nearest. -/
theorem roundDiv_bounds {num den : Nat} (h : 0 < den) :
    2 * num ≤ 2 * roundDiv num den * den + den ∧ 2 * roundDiv num den * den ≤ 2 * num + den := by
  have hq := Nat.div_add_mod num den
  have hr := Nat.mod_lt num h
  have hc : den * (num / den) = num / den * den := Nat.mul_comm _ _
  simp only [roundDiv]
  split
  · rw [Nat.mul_assoc]; omega
  split
  · rw [Nat.mul_assoc, Nat.add_mul]; omega
  · have h2 : num / den % 2 = 0 ∨ num / den % 2 = 1 := by omega
    rcases h2 with h2 | h2 <;> rw [h2, Nat.mul_assoc, Nat.add_mul] <;> omega

end NatBehavior
