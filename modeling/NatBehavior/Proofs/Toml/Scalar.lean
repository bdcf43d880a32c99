import Mathlib.Data.List.Basic
import Mathlib.Data.List.TakeWhile
import NatBehavior.Proofs.Text.Reader
import NatBehavior.Toml.Scalar

/-! Decimal integers are read back from their digits. What starts with digits could be a date, a
time or a number with a fraction too; each of these would go on with a sign that no digits have. -/
namespace NatBehavior.Toml

variable {cs : List Char} {n : Nat}

theorem digits_eq (n : Nat) (cs : List Char) :
    digits n cs = none ∨ ∃ k, digits n cs = some (k, cs.drop n) := by
  unfold digits
  dsimp only
  split_ifs
  · exact .inr ⟨_, rfl⟩
  · exact .inl rfl

section

variable (hdigits : ∀ c ∈ cs, c.isDigit)
include hdigits

theorem boolean?_of_digits : boolean? cs = none := by
  unfold boolean?
  split_ifs with htrue hfalse
  · subst htrue
    exact absurd (hdigits 't' (by decide)) (by decide)
  · subst hfalse
    exact absurd (hdigits 'f' (by decide)) (by decide)
  · rfl

theorem char_drop_of_digits {c : Char} (hc : c.isDigit = false) :
    Reader.char c (cs.drop n) = none :=
  Reader.char_eq_none fun d hd => by
    rintro rfl
    exact Bool.false_ne_true (hc.symm.trans (hdigits d (List.mem_of_mem_drop hd)))

/-- A date or a time would have a sign after its first digits. -/
theorem datetime?_of_digits : datetime? cs = none := by
  have hdate : date cs = none := by
    rcases digits_eq 4 cs with hnone | ⟨year, hyear⟩
    · rw [date, hnone]
      rfl
    · rw [date, hyear]
      change (Reader.char '-' (cs.drop 4)).bind _ = none
      rw [char_drop_of_digits hdigits (by decide)]
      rfl
  have hclock : clock cs = none := by
    rcases digits_eq 2 cs with hnone | ⟨hour, hhour⟩
    · rw [clock, hnone]
      rfl
    · rw [clock, hhour]
      change (Reader.char ':' (cs.drop 2)).bind _ = none
      rw [char_drop_of_digits hdigits (by decide)]
      rfl
  have htime : time cs = none := by
    rw [time, hclock]
    rfl
  rw [datetime?, hdate, Reader.all, htime]
  rfl

theorem ungroup?_of_digits (hcs : cs ≠ []) : ungroup? Char.isDigit cs = some cs := by
  induction cs with
  | nil => exact absurd rfl hcs
  | cons c cs ih =>
    rw [List.forall_mem_cons] at hdigits
    cases cs with
    | nil => simp [ungroup?, hdigits.1]
    | cons d cs =>
      have hd : d ≠ '_' := by
        rintro rfl
        exact absurd (hdigits.2 '_' List.mem_cons_self) (by decide)
      rw [ungroup?, if_neg (by simp [hdigits.1]), ih hdigits.2 (List.cons_ne_nil d cs)]
      · rfl
      · exact hd

theorem splitSign_of_digits : splitSign cs = (false, cs) := by
  unfold splitSign
  split
  · exact absurd (hdigits '+' List.mem_cons_self) (by decide)
  · exact absurd (hdigits '-' List.mem_cons_self) (by decide)
  · rfl

/-- There is nothing behind the digits that a fraction or an exponent could be. -/
theorem float?_of_digits : float? cs = none := by
  have hname : ¬ (cs = ['i', 'n', 'f'] ∨ cs = ['n', 'a', 'n']) := by
    rintro (rfl | rfl)
    · exact absurd (hdigits 'i' List.mem_cons_self) (by decide)
    · exact absurd (hdigits 'n' List.mem_cons_self) (by decide)
  have hrest : cs.dropWhile (fun c => c.isDigit || c = '_') = [] :=
    List.dropWhile_eq_nil_iff.mpr fun c hc => by simp [hdigits c hc]
  unfold float?
  rw [splitSign_of_digits hdigits]
  dsimp only
  rw [if_neg hname, hrest]
  cases decimalDigits? (cs.takeWhile fun c => c.isDigit || c = '_') <;> rfl

theorem integer?_of_digits (hcs : cs ≠ []) (hzero : cs.head? = some '0' → cs.length = 1) :
    integer? cs = (Numeral.read? 9223372036854775808 cs).bind fun k => within64? k := by
  have hdecimal : decimalDigits? cs = some cs := by
    unfold decimalDigits?
    rw [ungroup?_of_digits hdigits hcs]
    exact if_neg (by simpa using hzero)
  unfold integer?
  split
  · exact absurd (hdigits 'x' (by simp)) (by decide)
  · exact absurd (hdigits 'o' (by simp)) (by decide)
  · exact absurd (hdigits 'b' (by simp)) (by decide)
  · rw [splitSign_of_digits hdigits]
    dsimp only
    rw [hdecimal]
    -- the reading is taken out of sight, or its limit would be unfolded below
    generalize Numeral.read? 9223372036854775808 = read
    dsimp only [Option.bind_eq_bind, Option.bind_some]
    cases read cs with
    | none => rfl
    | some k => rfl

end

theorem integer?_toDigits (hn : n < 9223372036854775808) :
    integer? (Nat.toDigits 10 n) = some (.integer n) := by
  have hzero : (Nat.toDigits 10 n).head? = some '0' → (Nat.toDigits 10 n).length = 1 := by
    intro h
    rw [Numeral.eq_zero_of_head?_toDigits h]
    rfl
  rw [integer?_of_digits (fun c => Numeral.isDigit_of_mem_toDigits) Nat.toDigits_ne_nil hzero,
    Numeral.read?_toDigits (Nat.le_of_lt hn), Option.bind_some]
  exact if_pos (by omega)

theorem scalarToken_toDigits (n : Nat) (rest : List Char) :
    scalarToken (Nat.toDigits 10 n ++ '\n' :: rest) = (Nat.toDigits 10 n, '\n' :: rest) := by
  have hall : ∀ c ∈ Nat.toDigits 10 n, isScalarChar c := by
    intro c hc
    simp [isScalarChar, Char.isAlphanum, Numeral.isDigit_of_mem_toDigits hc]
  have hfront :
      (Nat.toDigits 10 n ++ '\n' :: rest).takeWhile isScalarChar = Nat.toDigits 10 n := by
    rw [List.takeWhile_append_of_pos hall, List.takeWhile_cons_of_neg (by decide), List.append_nil]
  have hback : (Nat.toDigits 10 n ++ '\n' :: rest).dropWhile isScalarChar = '\n' :: rest := by
    rw [List.dropWhile_append_of_pos hall, List.dropWhile_cons_of_neg (by decide)]
  unfold scalarToken
  rw [hfront, hback]
  dsimp only
  split
  · rename_i hbreak
    cases hbreak
  · rfl

theorem scalar_toDigits (hn : n < 9223372036854775808) (rest : List Char) :
    scalar (Nat.toDigits 10 n ++ '\n' :: rest) = some (.integer n, '\n' :: rest) := by
  have hdigits : ∀ c ∈ Nat.toDigits 10 n, c.isDigit := fun c => Numeral.isDigit_of_mem_toDigits
  simp only [scalar, scalarToken_toDigits, boolean?_of_digits hdigits,
    datetime?_of_digits hdigits, float?_of_digits hdigits, integer?_toDigits hn]
  rfl

end NatBehavior.Toml
