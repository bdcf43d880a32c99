import NatBehavior.Text.Reader

/-! Quoted strings of TOML, read and written. Single quotes take their text as it stands, double
quotes know escapes, and either quote tripled holds line breaks. A text is written in the first
form that needs no escapes, and with escapes where there is none. -/
namespace NatBehavior.Toml

inductive Quote where
  | basic
  | literal
deriving DecidableEq, Repr

def Quote.mark : Quote → Char
  | .basic => '\x22'
  | .literal => '\x27'

/-- Whether a backslash starts an escape. -/
def Quote.escapes : Quote → Bool
  | .basic => true
  | .literal => false

/-- ASCII control characters. -/
def isControl (c : Char) : Bool := c.toNat < 0x20 || c.toNat = 0x7F

/-- Characters that stand for themselves: all but controls other than the tab. -/
def isPlain (c : Char) : Bool := c = '\t' || !isControl c

def isSpace (c : Char) : Bool := c = ' ' || c = '\t'

/-! ## Reading -/

/-- How many characters the line break in front has, of either kind. -/
def newline? : List Char → Option Nat
  | '\n' :: _ => some 1
  | '\r' :: '\n' :: _ => some 2
  | _ => none

/-- The character that so many hexadecimal digits name, surrogates naming none. -/
def codePoint? (n : Nat) (cs : List Char) : Option Char :=
  let digits := cs.take n
  let code := Reader.hexValue digits
  if digits.length = n && digits.all Reader.isHexDigit && code.isValidChar then some (Char.ofNat code)
  else none

/-- What follows a backslash: the character it stands for and how many characters were used. -/
def escape? : List Char → Option (Char × Nat)
  | 'b' :: _ => some ('\x08', 1)
  | 't' :: _ => some ('\t', 1)
  | 'n' :: _ => some ('\n', 1)
  | 'f' :: _ => some ('\x0c', 1)
  | 'r' :: _ => some ('\r', 1)
  | '\x22' :: _ => some ('\x22', 1)
  | '\\' :: _ => some ('\\', 1)
  | 'u' :: cs => (codePoint? 4 cs).map (·, 5)
  | 'U' :: cs => (codePoint? 8 cs).map (·, 9)
  | _ => none

/-- How many blanks and line breaks there are in front. -/
def blankRun : List Char → Nat
  | ' ' :: cs => blankRun cs + 1
  | '\t' :: cs => blankRun cs + 1
  | '\n' :: cs => blankRun cs + 1
  | '\r' :: '\n' :: cs => blankRun cs + 2
  | _ => 0

/-- A line break after a backslash is dropped with all blanks around it; so many characters are
used. -/
def continuation? (cs : List Char) : Option Nat :=
  let spaces := (cs.takeWhile isSpace).length
  (newline? (cs.drop spaces)).map fun _ => spaces + blankRun (cs.drop spaces)

/-- Reads a string on one line, from behind its first quote to behind its last. -/
def lineBody (q : Quote) : Reader (List Char)
  | [] => none
  | c :: cs =>
    if c = q.mark then some ([], cs)
    else if q.escapes && c = '\\' then
      match escape? cs with
      | none => none
      | some (d, n) => (lineBody q (cs.drop n)).map fun (text, rest) => (d :: text, rest)
    else if isPlain c then (lineBody q cs).map fun (text, rest) => (c :: text, rest)
    else none
  termination_by cs => cs.length
  decreasing_by all_goals simp only [List.length_cons, List.length_drop]; omega

/-- Reads a string between tripled quotes, from behind the first three to behind the last three.
One or two quotes stand for themselves; of four or five the first ones do. -/
def blockBody (q : Quote) : Reader (List Char)
  | [] => none
  | c :: cs =>
    if c = q.mark then
      let n := ((c :: cs).takeWhile (· = q.mark)).length
      if 3 ≤ n then
        let inside := min (n - 3) 2
        some (List.replicate inside c, (c :: cs).drop (inside + 3))
      else (blockBody q cs).map fun (text, rest) => (c :: text, rest)
    else if q.escapes && c = '\\' then
      match continuation? cs with
      | some n => blockBody q (cs.drop n)
      | none =>
        match escape? cs with
        | none => none
        | some (d, n) => (blockBody q (cs.drop n)).map fun (text, rest) => (d :: text, rest)
    else match newline? (c :: cs) with
      | some n => (blockBody q (cs.drop (n - 1))).map fun (text, rest) => ('\n' :: text, rest)
      | none =>
        if isPlain c then (blockBody q cs).map fun (text, rest) => (c :: text, rest)
        else none
  termination_by cs => cs.length
  decreasing_by all_goals simp only [List.length_cons, List.length_drop]; omega

/-- Reads a string on one line. -/
def lineString (q : Quote) : Reader String := fun cs => do
  let (_, cs) ← Reader.char q.mark cs
  let (text, rest) ← lineBody q cs
  return (String.ofList text, rest)

/-- Reads a string in one of the four forms. A line break right after tripled quotes is dropped. -/
def quotedString : Reader String := fun cs =>
  match cs with
  | a :: b :: c :: rest =>
    if a = b ∧ b = c ∧ (a = '\x22' ∨ a = '\x27') then
      let q : Quote := if a = '\x22' then .basic else .literal
      (blockBody q (rest.drop ((newline? rest).getD 0))).map fun (text, rest) =>
        (String.ofList text, rest)
    else lineString .basic cs <|> lineString .literal cs
  | _ => lineString .basic cs <|> lineString .literal cs

/-! ## Writing -/

/-- The longest run of a character. -/
def longestRun (c : Char) (cs : List Char) : Nat :=
  (cs.foldl (fun (best, run) d =>
    let run := if d = c then run + 1 else 0
    (max best run, run)) (0, 0)).1

/-- A character that must be escaped between double quotes. -/
def escaped (c : Char) : List Char :=
  if c = '\x08' then ['\\', 'b']
  else if c = '\t' then ['\\', 't']
  else if c = '\n' then ['\\', 'n']
  else if c = '\x0c' then ['\\', 'f']
  else if c = '\r' then ['\\', 'r']
  else if c = '\x22' then ['\\', '\x22']
  else if c = '\\' then ['\\', '\\']
  else
    let digit (n : Nat) : Char := (Nat.digitChar n).toUpper
    ['\\', 'u', '0', '0', digit (c.toNat / 16), digit (c.toNat % 16)]

/-- Text between double quotes on one line. -/
def lineText (cs : List Char) : List Char :=
  cs.flatMap fun c => if isControl c || c = '\x22' || c = '\\' then escaped c else [c]

/-- Text between tripled double quotes: line breaks stand, and every third quote of a run is
escaped. The count is of the quotes in front that were not escaped. -/
def blockText : (quotes : Nat) → List Char → List Char
  | _, [] => []
  | n, c :: cs =>
    if c = '\x22' then
      if n = 2 then escaped c ++ blockText 0 cs else c :: blockText (n + 1) cs
    else if c = '\n' then c :: blockText 0 cs
    else if isControl c || c = '\\' then escaped c ++ blockText 0 cs
    else c :: blockText 0 cs

/-- The written form of a text, quotes included. -/
def quote (s : String) : List Char :=
  let cs := s.toList
  let isBroken := cs.contains '\n'
  let isClean := cs.all fun c => isPlain c || c = '\n'
  let opening (mark : Char) := [mark, mark, mark] ++ if isBroken then ['\n'] else []
  let basicBlock := opening '\x22' ++ blockText 0 cs ++ ['\x22', '\x22', '\x22']
  let basicLine := '\x22' :: lineText cs ++ ['\x22']
  if isClean && !isBroken && !cs.contains '\\' && !cs.contains '\x22' then basicLine
  else if isClean && !isBroken && !cs.contains '\x27' then '\x27' :: cs ++ ['\x27']
  else if isClean && !cs.contains '\\' && longestRun '\x22' cs ≤ 2 then basicBlock
  else if isClean && longestRun '\x27' cs ≤ 2 then
    opening '\x27' ++ cs ++ ['\x27', '\x27', '\x27']
  else if isBroken then basicBlock
  else basicLine

end NatBehavior.Toml
