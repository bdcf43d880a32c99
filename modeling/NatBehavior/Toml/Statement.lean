import NatBehavior.Toml.Quoted
import NatBehavior.Toml.Scalar

/-! The statements of a document: headers and assignments, each on lines of its own. -/
namespace NatBehavior.Toml

inductive Statement where
  /-- Opens the table at a path. -/
  | table (path : List String)
  /-- Opens a new element of the array of tables at a path. -/
  | element (path : List String)
  | assign (path : List String) (value : Value)
deriving Repr

/-- How deep arrays and inline tables may be nested, and how many keys a path may have. -/
def nestingLimit : Nat := 79

def isBareKeyChar (c : Char) : Bool := c.isAlphanum || c = '_' || c = '-'

def skipSpace (cs : List Char) : List Char := cs.dropWhile isSpace

def bareKey : Reader String := fun cs =>
  let front := cs.takeWhile isBareKeyChar
  if front.isEmpty then none
  else some (String.ofList front, cs.dropWhile isBareKeyChar)

/-- Reads one key, quoted on one line or bare, with the blanks around it. -/
def key : Reader String := fun cs => do
  let cs := skipSpace cs
  let (name, rest) ← lineString .basic cs <|> lineString .literal cs <|> bareKey cs
  return (name, skipSpace rest)

/-- Reads keys divided by points, as many as the room allows. -/
def keyPath : (room : Nat) → Reader (List String)
  | 0, _ => none
  | room + 1, cs =>
    match key cs with
    | none => none
    | some (name, '.' :: rest) =>
      (keyPath room rest).map fun (names, rest) => (name :: names, rest)
    | some (name, rest) => some ([name], rest)

/-- What follows the number sign of a comment, up to the end of its line. -/
def skipComment (cs : List Char) : List Char := cs.dropWhile isPlain

/-- Blanks and a comment at the end of a line, and the line break or the end of the text. -/
def lineEnd (cs : List Char) : Option (List Char) :=
  let cs := match skipSpace cs with
    | '#' :: rest => skipComment rest
    | rest => rest
  match cs with
  | [] => some []
  | cs => (newline? cs).map cs.drop

/-- Blanks, comments and line breaks between the items of an array. The bound is met by the
length of the text. -/
def skipLines : (bound : Nat) → List Char → List Char
  | 0, cs => cs
  | bound + 1, cs =>
    match cs.drop (blankRun cs) with
    | '#' :: rest => skipLines bound (skipComment rest)
    | rest => rest

/-- Reads the items of an array up to its closing bracket, which a comma may precede. The bound
is met by the length of the text. -/
def arrayItems (item : Reader α) : (bound : Nat) → Reader (List α)
  | 0, _ => none
  | bound + 1, cs =>
    match skipLines (bound + 1) cs with
    | ']' :: rest => some ([], rest)
    | cs =>
      match item cs with
      | none => none
      | some (a, rest) =>
        match skipLines bound rest with
        | ',' :: rest => (arrayItems item bound rest).map fun (as, rest) => (a :: as, rest)
        | ']' :: rest => some ([a], rest)
        | _ => none

/-- Reads the assignments of an inline table, at least one, up to its closing brace. The bound is
met by the length of the text. -/
def inlinePairs (pair : Reader α) : (bound : Nat) → Reader (List α)
  | 0, _ => none
  | bound + 1, cs =>
    match pair cs with
    | none => none
    | some (a, rest) =>
      match skipSpace rest with
      | ',' :: rest => (inlinePairs pair bound rest).map fun (as, rest) => (a :: as, rest)
      | '\x7d' :: rest => some ([a], rest)
      | _ => none

/-- Reads a path of keys, an equals sign and a value. -/
def assignment (value : Reader Value) : Reader (List String × Value) := fun cs => do
  let (path, cs) ← keyPath nestingLimit cs
  let (_, cs) ← Reader.char '=' cs
  let (v, cs) ← value (skipSpace cs)
  return ((path, v), cs)

end NatBehavior.Toml
