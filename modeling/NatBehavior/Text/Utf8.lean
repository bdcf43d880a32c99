import NatBehavior.Bytes

/-! UTF-8 over byte strings. A byte string is cut into characters and malformed pieces,
a malformed piece being as long as it still begins some character. Strict reading refuses
a malformed piece and lenient reading puts U+FFFD in its place. -/
namespace NatBehavior.Utf8

def encode (s : String) : Bytes :=
  s.toList.flatMap String.utf8EncodeChar

/-- An inclusive range that a byte of a sequence must lie in. -/
structure Range where
  low : UInt8
  high : UInt8

def Range.contains (r : Range) (b : UInt8) : Bool :=
  r.low ≤ b && b ≤ r.high

/-- A byte that continues a sequence. -/
def tail : Range := ⟨0x80, 0xBF⟩

/-- What a lead byte calls for: its share of the code point and the ranges of the bytes that
follow. Overlong forms, surrogates and code points past U+10FFFF begin nothing. -/
def lead (b : UInt8) : Option (Nat × List Range) :=
  if b < 0x80 then some (b.toNat, [])
  else if b < 0xC2 then none
  else if b < 0xE0 then some (b.toNat - 0xC0, [tail])
  else if b = 0xE0 then some (0, [⟨0xA0, 0xBF⟩, tail])
  else if b = 0xED then some (0xD, [⟨0x80, 0x9F⟩, tail])
  else if b < 0xF0 then some (b.toNat - 0xE0, [tail, tail])
  else if b = 0xF0 then some (0, [⟨0x90, 0xBF⟩, tail, tail])
  else if b < 0xF4 then some (b.toNat - 0xF0, [tail, tail, tail])
  else if b = 0xF4 then some (4, [⟨0x80, 0x8F⟩, tail, tail])
  else none

/-- How many bytes in front lie in their ranges. -/
def fitting : List Range → Bytes → Nat
  | r :: rs, b :: bs => if r.contains b then fitting rs bs + 1 else 0
  | _, _ => 0

/-- The code point of a lead byte's share and the bytes after it. -/
def codePoint (share : Nat) (rest : Bytes) : Nat :=
  rest.foldl (fun n b => n * 64 + (b.toNat - 0x80)) share

/-- The characters of a byte string, none standing for a malformed piece. -/
def pieces : Bytes → List (Option Char)
  | [] => []
  | b :: bs =>
    match lead b with
    | none => none :: pieces bs
    | some (share, ranges) =>
      let n := fitting ranges bs
      let piece := if n = ranges.length then some (Char.ofNat (codePoint share (bs.take n))) else none
      piece :: pieces (bs.drop n)
  termination_by bytes => bytes.length
  decreasing_by all_goals simp only [List.length_cons, List.length_drop]; omega

/-- Reads a byte string that is UTF-8 throughout. -/
def decode? (bytes : Bytes) : Option String :=
  ((pieces bytes).mapM id).map String.ofList

/-- Reads any byte string, with U+FFFD for each malformed piece. -/
def decodeLenient (bytes : Bytes) : String :=
  String.ofList ((pieces bytes).map (·.getD '\uFFFD'))

end NatBehavior.Utf8
