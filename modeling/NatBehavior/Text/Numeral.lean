/-! Unsigned decimal numerals. -/
namespace NatBehavior.Numeral

/-- The value of a run of decimal digits. -/
def value (digits : List Char) : Nat :=
  Nat.ofDigitChars 10 digits 0

/-- Appends a digit to a number that has to stay within the limit. -/
def push? (limit n : Nat) (c : Char) : Option Nat :=
  let next := 10 * n + (c.toNat - '0'.toNat)
  if next ≤ limit then some next else none

/-- Reads one or more digits, leading zeros included, of a value within the limit. What follows
the digit that goes beyond is not looked at, so that long numerals cost no more than their length. -/
def read? (limit : Nat) (cs : List Char) : Option Nat :=
  if cs.isEmpty || !cs.all Char.isDigit then none else cs.foldlM (push? limit) 0

/-- Reads a numeral that may have one plus sign in front. -/
def readSigned? (limit : Nat) : List Char → Option Nat
  | '+' :: cs => read? limit cs
  | cs => read? limit cs

theorem value_toDigits (n : Nat) : value (Nat.toDigits 10 n) = n :=
  Nat.ofDigitChars_toDigits (by decide) (by decide)

theorem le_ofDigitChars (cs : List Char) (n : Nat) : n ≤ Nat.ofDigitChars 10 cs n := by
  induction cs generalizing n with
  | nil => simp
  | cons c cs ih =>
    rw [Nat.ofDigitChars_cons]
    exact Nat.le_trans (by omega) (ih _)

theorem foldlM_push? (limit : Nat) (cs : List Char) {n : Nat} (h : n ≤ limit) :
    cs.foldlM (push? limit) n =
      if Nat.ofDigitChars 10 cs n ≤ limit then some (Nat.ofDigitChars 10 cs n) else none := by
  induction cs generalizing n with
  | nil => simp [h]
  | cons c cs ih =>
    rw [List.foldlM_cons, Nat.ofDigitChars_cons, push?]
    by_cases hn : 10 * n + (c.toNat - '0'.toNat) ≤ limit
    · simp only [if_pos hn, Option.bind_eq_bind, Option.bind_some, ih hn]
    · have := le_ofDigitChars cs (10 * n + (c.toNat - '0'.toNat))
      rw [if_neg hn, if_neg (by omega)]
      rfl

theorem read?_eq (limit : Nat) (cs : List Char) :
    read? limit cs =
      if cs.isEmpty || !cs.all Char.isDigit then none
      else if value cs ≤ limit then some (value cs) else none := by
  rw [read?, foldlM_push? limit cs (Nat.zero_le _)]
  rfl

theorem read?_toDigits {limit n : Nat} (h : n ≤ limit) :
    read? limit (Nat.toDigits 10 n) = some n := by
  have hd : (Nat.toDigits 10 n).all Char.isDigit := by
    simp only [List.all_eq_true]
    exact fun c hc => Nat.isDigit_of_mem_toDigits (by decide) (by decide) hc
  simp [read?_eq, hd, value_toDigits, h]

end NatBehavior.Numeral
