import NatBehavior.Text.Reader
import NatBehavior.Toml.Value

/-! Scalars written without quotes. They are made of letters, digits and a few signs, so a scalar
ends where those do; each kind is a rule on the whole run of characters. -/
namespace NatBehavior.Toml

def isScalarChar (c : Char) : Bool :=
  c.isAlphanum || c = '_' || c = '+' || c = '-' || c = '.' || c = ':'

/-- Drops the underscores of a number, each of which must stand between two digits. -/
def ungroup? (isDigit : Char → Bool) : List Char → Option (List Char)
  | [] => none
  | c :: cs =>
    if !isDigit c then none
    else match cs with
      | [] => some [c]
      | '_' :: rest => (ungroup? isDigit rest).map (c :: ·)
      | d :: rest => (ungroup? isDigit (d :: rest)).map (c :: ·)

/-- Splits off a sign; the flag says that it is a minus. -/
def splitSign : List Char → Bool × List Char
  | '+' :: cs => (false, cs)
  | '-' :: cs => (true, cs)
  | cs => (false, cs)

/-- The digits of a decimal integer, which has no leading zeros. -/
def decimalDigits? (cs : List Char) : Option (List Char) := do
  let digits ← ungroup? Char.isDigit cs
  if digits.head? = some '0' && digits.length ≠ 1 then none else some digits

/-- Integers have 64 bits. -/
def within64? (n : Int) : Option Value :=
  if -9223372036854775808 ≤ n ∧ n < 9223372036854775808 then some (.integer n) else none

/-- An integer in a base that its first two characters tell. -/
def based? (base : Nat) (isDigit : Char → Bool) (cs : List Char) : Option Value := do
  within64? (← Reader.inRadix? base 9223372036854775807 (← ungroup? isDigit cs))

def integer? : List Char → Option Value
  | '0' :: 'x' :: cs => based? 16 Reader.isHexDigit cs
  | '0' :: 'o' :: cs => based? 8 (fun c => '0' ≤ c && c ≤ '7') cs
  | '0' :: 'b' :: cs => based? 2 (fun c => c = '0' || c = '1') cs
  | cs => do
    let (isNegative, cs) := splitSign cs
    let n : Int ← Numeral.read? 9223372036854775808 (← decimalDigits? cs)
    within64? (if isNegative then -n else n)

/-- Whether a decimal number rounds to a finite double: whether it lies below the middle of the
largest double and the next power of two. That is a whole number of 309 places, so of a number
with as many places in front of the point the digits behind it do not matter. -/
def isFinite (digits : List Char) (exponent : Int) : Bool :=
  let digits := digits.dropWhile (· = '0')
  let places := digits.length + exponent
  if digits.isEmpty || places < 309 then true
  else if 309 < places then false
  else
    let front := (digits ++ List.replicate (309 - digits.length) '0').take 309
    Numeral.value front < 1 <<< 1024 - 1 <<< 970

/-- The value of an exponent's digits. Those behind the first value of more than sixteen bits are
passed over. -/
def magnitude (digits : List Char) : Nat :=
  digits.foldl (fun n c => if n < 65536 then n * 10 + (c.toNat - 48) else n) 0

/-- The exponent of a number, if there is one. -/
def exponent? : List Char → Option Int
  | [] => some 0
  | c :: cs => do
    guard (c = 'e' ∨ c = 'E')
    let (isNegative, cs) := splitSign cs
    let n : Int := magnitude (← ungroup? Char.isDigit cs)
    return if isNegative then -n else n

/-- The digits after the point, if there is one, and what follows them. -/
def fraction? : List Char → Option (List Char × List Char)
  | '.' :: cs => do
    let isPart (c : Char) := c.isDigit || c = '_'
    return (← ungroup? Char.isDigit (cs.takeWhile isPart), cs.dropWhile isPart)
  | cs => some ([], cs)

/-- A number with a fraction, an exponent or both. It must not overflow upwards. -/
def float? (token : List Char) : Option Value := do
  let (isNegative, cs) := splitSign token
  if cs = ['i', 'n', 'f'] ∨ cs = ['n', 'a', 'n'] then some (.float (String.ofList token))
  else
    let isPart (c : Char) := c.isDigit || c = '_'
    let whole ← decimalDigits? (cs.takeWhile isPart)
    let rest := cs.dropWhile isPart
    guard (!rest.isEmpty)
    let (fraction, rest) ← fraction? rest
    let exponent ← exponent? rest
    guard (isNegative ∨ isFinite (whole ++ fraction) (exponent - fraction.length))
    return .float (String.ofList token)

def boolean? (token : List Char) : Option Value :=
  if token = "true".toList then some (.boolean true)
  else if token = "false".toList then some (.boolean false)
  else none

/-- Reads a fixed number of digits. -/
def digits (n : Nat) : Reader Nat := fun cs =>
  let front := cs.take n
  if front.length = n && front.all Char.isDigit then some (Numeral.value front, cs.drop n)
  else none

def daysInMonth (year month : Nat) : Nat :=
  if month = 2 then
    if year % 4 = 0 ∧ (year % 100 ≠ 0 ∨ year % 400 = 0) then 29 else 28
  else if month = 4 ∨ month = 6 ∨ month = 9 ∨ month = 11 then 30
  else 31

/-- Reads a date that the calendar has. -/
def date : Reader Unit := fun cs => do
  let (year, cs) ← digits 4 cs
  let (_, cs) ← Reader.char '-' cs
  let (month, cs) ← digits 2 cs
  let (_, cs) ← Reader.char '-' cs
  let (day, cs) ← digits 2 cs
  guard (1 ≤ month ∧ month ≤ 12 ∧ 1 ≤ day ∧ day ≤ daysInMonth year month)
  return ((), cs)

/-- Reads hours and minutes. -/
def clock : Reader Unit := fun cs => do
  let (hour, cs) ← digits 2 cs
  let (_, cs) ← Reader.char ':' cs
  let (minute, cs) ← digits 2 cs
  guard (hour ≤ 23 ∧ minute ≤ 59)
  return ((), cs)

/-- Reads a time of day, which may be a leap second and may have a fraction. -/
def time : Reader Unit := fun cs => do
  let (_, cs) ← clock cs
  let (_, cs) ← Reader.char ':' cs
  let (second, cs) ← digits 2 cs
  guard (second ≤ 60)
  match cs with
  | '.' :: cs =>
    guard ((cs.head?.map Char.isDigit).getD false)
    return ((), cs.dropWhile Char.isDigit)
  | cs => return ((), cs)

/-- Whether the text is empty or an offset from universal time. -/
def isOffset : List Char → Bool
  | [] => true
  | ['Z'] | ['z'] => true
  | c :: cs => (c = '+' || c = '-') && (Reader.all clock cs).isSome

def datetime? (token : List Char) : Option Value :=
  let isDatetime := match date token with
    | some (_, []) => true
    | some (_, mark :: cs) =>
      (mark = 'T' || mark = 't' || mark = ' ') &&
        match time cs with
        | some (_, rest) => isOffset rest
        | none => false
    | none => (Reader.all time token).isSome
  if isDatetime then some (.datetime (String.ofList token)) else none

/-- The characters of the scalar in front. A blank after a date does not end it where a digit
follows. -/
def scalarToken (cs : List Char) : List Char × List Char :=
  let front := cs.takeWhile isScalarChar
  let rest := cs.dropWhile isScalarChar
  match date front, rest with
  | some (_, []), ' ' :: d :: after =>
    if d.isDigit then
      (front ++ ' ' :: (d :: after).takeWhile isScalarChar, (d :: after).dropWhile isScalarChar)
    else (front, rest)
  | _, _ => (front, rest)

/-- Reads a scalar that is not quoted. -/
def scalar : Reader Value := fun cs => do
  let (token, rest) := scalarToken cs
  let value ← boolean? token <|> datetime? token <|> float? token <|> integer? token
  return (value, rest)

end NatBehavior.Toml
