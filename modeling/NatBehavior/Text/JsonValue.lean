/-! JSON values and their text over several lines, two blanks for each level. -/
namespace NatBehavior

inductive JsonValue where
  | null
  | number (n : Nat)
  | string (s : String)
  | array (items : List JsonValue)
  | object (members : List (String × JsonValue))
deriving Repr

namespace JsonValue

/-- Controls are escaped, by a letter where there is one. -/
def escaped (c : Char) : List Char :=
  if c = '\x22' then ['\\', '\x22']
  else if c = '\\' then ['\\', '\\']
  else if c = '\x08' then ['\\', 'b']
  else if c = '\x0c' then ['\\', 'f']
  else if c = '\n' then ['\\', 'n']
  else if c = '\r' then ['\\', 'r']
  else if c = '\t' then ['\\', 't']
  else if c.toNat < 0x20 then
    ['\\', 'u', '0', '0', Nat.digitChar (c.toNat / 16), Nat.digitChar (c.toNat % 16)]
  else [c]

def quote (s : String) : List Char :=
  '\x22' :: s.toList.flatMap escaped ++ ['\x22']

def newLine (level : Nat) : List Char := '\n' :: List.replicate (2 * level) ' '

/-- Items on lines of their own between two brackets, nothing between them where there are none. -/
def block (opening closing : Char) (level : Nat) (items : List (List Char)) : List Char :=
  if items.isEmpty then [opening, closing]
  else
    let lines := items.map (newLine (level + 1) ++ ·)
    opening :: [','].intercalate lines ++ newLine level ++ [closing]

mutual

def textAt (level : Nat) : JsonValue → List Char
  | null => "null".toList
  | number n => Nat.toDigits 10 n
  | string s => quote s
  | array items => block '[' ']' level (itemTexts (level + 1) items)
  | object members => block '\x7b' '\x7d' level (memberTexts (level + 1) members)

def itemTexts (level : Nat) : List JsonValue → List (List Char)
  | [] => []
  | v :: vs => textAt level v :: itemTexts level vs

def memberTexts (level : Nat) : List (String × JsonValue) → List (List Char)
  | [] => []
  | (name, v) :: vs => (quote name ++ ':' :: ' ' :: textAt level v) :: memberTexts level vs

end

def text (v : JsonValue) : String := String.ofList (textAt 0 v)

end JsonValue

end NatBehavior
