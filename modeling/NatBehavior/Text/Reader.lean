import NatBehavior.Text.Numeral

/-! Readers of text. A reader takes the characters still to read and returns what it read with
the rest, or nothing. -/
namespace NatBehavior

abbrev Reader (α : Type) := List Char → Option (α × List Char)

namespace Reader

/-- Reads one given character. -/
def char (c : Char) : Reader Unit
  | d :: cs => if c = d then some ((), cs) else none
  | [] => none

@[simp] theorem char_self (c : Char) (cs : List Char) : char c (c :: cs) = some ((), cs) :=
  if_pos rfl

theorem char_eq_none {c : Char} {cs : List Char} (h : ∀ d ∈ cs, d ≠ c) : char c cs = none := by
  cases cs with
  | nil => rfl
  | cons d cs => exact if_neg (h d List.mem_cons_self).symm

/-- Reads a run of decimal digits, leading zeros included, of a value within the limit. -/
def number (limit : Nat) : Reader Nat := fun cs => do
  let n ← Numeral.read? limit (cs.takeWhile Char.isDigit)
  return (n, cs.dropWhile Char.isDigit)

/-- Accepts a reading that leaves nothing over. -/
def all (reader : Reader α) (cs : List Char) : Option α :=
  match reader cs with
  | some (a, []) => some a
  | _ => none

/-- The value of a hexadecimal digit in either case. -/
def hexDigit? (c : Char) : Option Nat :=
  if c.isDigit then some (c.toNat - 48)
  else if 'a' ≤ c && c ≤ 'f' then some (c.toNat - 87)
  else if 'A' ≤ c && c ≤ 'F' then some (c.toNat - 55)
  else none

def isHexDigit (c : Char) : Bool := (hexDigit? c).isSome

/-- The value of digits in a radix up to sixteen, where it is within the limit. What follows the
digit that goes beyond is not looked at. -/
def inRadix? (radix limit : Nat) (cs : List Char) : Option Nat :=
  cs.foldlM (fun n c => do
    let digit ← hexDigit? c
    let n := n * radix + digit
    guard (digit < radix ∧ n ≤ limit)
    return n) 0

/-- The value of a run of hexadecimal digits. -/
def hexValue (digits : List Char) : Nat :=
  digits.foldl (fun n c => n * 16 + (hexDigit? c).getD 0) 0

end Reader

end NatBehavior
