import NatBehavior.Text.JsonString

/-! Reading JSON texts of the values that reports are made of: null, natural numbers, strings,
arrays and objects, with spaces between their parts. -/
namespace NatBehavior.JsonValue

open JsonString (isSpace)

variable {α : Type}

/-- Reads a number of digits only. A zero does not stand in front of other digits. -/
def natural : Reader Nat := fun cs =>
  let digits := cs.takeWhile Char.isDigit
  if digits = [] ∨ digits.head? = some '0' ∧ digits ≠ ['0'] then none
  else some (Numeral.value digits, cs.dropWhile Char.isDigit)

/-- Reads items with commas between them, and the bracket behind the last one. The bound is met by
the length of the text. -/
def items (item : Reader α) (closing : Char) : (bound : Nat) → Reader (List α)
  | 0, _ => none
  | bound + 1, cs => do
    let (x, cs) ← item (cs.dropWhile isSpace)
    match cs.dropWhile isSpace with
    | [] => none
    | c :: cs =>
      if c = closing then return ([x], cs)
      else
        guard (c = ',')
        let (xs, cs) ← items item closing bound cs
        return (x :: xs, cs)

/-- Reads what stands behind an opening bracket. -/
def bracketed (item : Reader α) (closing : Char) : Reader (List α) := fun cs =>
  match cs.dropWhile isSpace with
  | [] => none
  | c :: rest => if c = closing then some ([], rest) else items item closing cs.length cs

def member (value : Reader JsonValue) : Reader (String × JsonValue) := fun cs => do
  let (name, cs) ← JsonString.string cs
  let (_, cs) ← Reader.char ':' (cs.dropWhile isSpace)
  let (v, cs) ← value (cs.dropWhile isSpace)
  return ((name, v), cs)

/-- Reads a value of limited depth. -/
def value : (depth : Nat) → Reader JsonValue
  | 0, _ => none
  | depth + 1, cs =>
    match cs with
    | '\x22' :: _ => (JsonString.string cs).map fun (s, cs) => (string s, cs)
    | '[' :: cs => (bracketed (value depth) ']' cs).map fun (vs, cs) => (array vs, cs)
    | '\x7b' :: cs =>
      (bracketed (member (value depth)) '\x7d' cs).map fun (vs, cs) => (object vs, cs)
    | 'n' :: 'u' :: 'l' :: 'l' :: cs => some (null, cs)
    | _ => (natural cs).map fun (n, cs) => (number n, cs)

/-- The value of a text that holds one, and spaces around it. -/
def ofText? (text : String) : Option JsonValue := do
  let (v, rest) ← value text.length (text.toList.dropWhile isSpace)
  guard (rest.all isSpace)
  return v

end NatBehavior.JsonValue
