import NatBehavior.Text.JsonValue
import NatBehavior.Text.Reader

/-! Reading JSON texts that are strings. Controls stand in a string as escapes only, and a character
beyond U+FFFF that is escaped is told by two surrogates, the high one first. -/
namespace NatBehavior.JsonString

/-- The value of four hexadecimal digits. -/
def unit : Reader Nat
  | a :: b :: c :: d :: cs =>
    (Reader.inRadix? 16 0xFFFF [a, b, c, d]).map fun n => (n, cs)
  | _ => none

def isHighSurrogate (n : Nat) : Bool := 0xD800 ≤ n && n < 0xDC00

def isLowSurrogate (n : Nat) : Bool := 0xDC00 ≤ n && n < 0xE000

/-- The character that a letter behind a backslash stands for. -/
def lettered? : Char → Option Char
  | '\x22' => some '\x22'
  | '\\' => some '\\'
  | '/' => some '/'
  | 'b' => some '\x08'
  | 'f' => some '\x0c'
  | 'n' => some '\n'
  | 'r' => some '\r'
  | 't' => some '\t'
  | _ => none

/-- Reads the rest of an escape, behind its backslash. -/
def escape : Reader Char
  | 'u' :: cs => do
    let (high, cs) ← unit cs
    guard (!isLowSurrogate high)
    if isHighSurrogate high then
      let (_, cs) ← Reader.char '\\' cs
      let (_, cs) ← Reader.char 'u' cs
      let (low, cs) ← unit cs
      guard (isLowSurrogate low)
      return (Char.ofNat (0x10000 + 0x400 * (high - 0xD800) + (low - 0xDC00)), cs)
    else return (Char.ofNat high, cs)
  | c :: cs => (lettered? c).map fun d => (d, cs)
  | [] => none

/-- Reads a character of a string, escaped or not. -/
def character : Reader Char
  | '\\' :: cs => escape cs
  | c :: cs => if c.toNat < 0x20 then none else some (c, cs)
  | [] => none

/-- Reads characters up to the closing mark. The bound is met by the length of the text. -/
def characters : (bound : Nat) → Reader (List Char)
  | _, '\x22' :: cs => some ([], cs)
  | 0, _ => none
  | bound + 1, cs => do
    let (c, cs) ← character cs
    let (text, cs) ← characters bound cs
    return (c :: text, cs)

def isSpace (c : Char) : Bool := [' ', '\t', '\n', '\r'].contains c

/-- Reads a string with the marks around it. -/
def string : Reader String := fun cs => do
  let (_, cs) ← Reader.char '\x22' cs
  let (text, cs) ← characters cs.length cs
  return (String.ofList text, cs)

/-- The string of a text that holds one, and spaces around it. -/
def ofText? (cs : List Char) : Option String := do
  let (text, rest) ← string (cs.dropWhile isSpace)
  guard (rest.all isSpace)
  return text

end NatBehavior.JsonString
