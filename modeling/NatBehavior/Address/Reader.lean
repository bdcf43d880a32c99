import NatBehavior.Address.Basic
import NatBehavior.Text.Reader

/-! Reading addresses: dotted decimal without leading zeros, groups of hexadecimal digits in
either case, and ports with any number of leading zeros. -/
namespace NatBehavior

namespace Ipv4

/-- One to three digits without a leading zero, up to 255. -/
def octet : Reader UInt8 := fun cs => do
  let digits := cs.takeWhile Char.isDigit
  guard (digits.length ≤ 3 ∧ (digits.length = 1 ∨ digits.head? ≠ some '0'))
  let (n, rest) ← Reader.number 255 cs
  return (n.toUInt8, rest)

def reader : Reader Ipv4 := fun cs => do
  let (a, cs) ← octet cs
  let (_, cs) ← Reader.char '.' cs
  let (b, cs) ← octet cs
  let (_, cs) ← Reader.char '.' cs
  let (c, cs) ← octet cs
  let (_, cs) ← Reader.char '.' cs
  let (d, cs) ← octet cs
  return (⟨a, b, c, d⟩, cs)

end Ipv4

namespace Ipv6

/-- One to four hexadecimal digits. -/
def group : Reader UInt16 := fun cs => do
  let digits := cs.takeWhile Reader.isHexDigit
  guard (1 ≤ digits.length ∧ digits.length ≤ 4)
  return ((Reader.hexValue digits).toUInt16, cs.dropWhile Reader.isHexDigit)

/-- The colon in front of every group but the first. -/
def separator (isFirst : Bool) : Reader Unit := fun cs =>
  if isFirst then some ((), cs) else Reader.char ':' cs

/-- Up to `room` groups, as many as there are. A version 4 address may stand for the last two;
the flag says that one does. -/
def groupRun : (room : Nat) → (isFirst : Bool) → List Char → (List UInt16 × Bool) × List Char
  | 0, _, cs => (([], false), cs)
  | room + 1, isFirst, cs =>
    let dotted := if room = 0 then none else do
      let (_, rest) ← separator isFirst cs
      Ipv4.reader rest
    match dotted with
    | some (ip, rest) => ((embedded ip, true), rest)
    | none =>
      let next := do
        let (_, rest) ← separator isFirst cs
        group rest
      match next with
      | none => (([], false), cs)
      | some (g, rest) =>
        let ((gs, isDotted), rest) := groupRun room false rest
        ((g :: gs, isDotted), rest)

/-- Eight groups, or fewer around two colons that stand for at least one zero group. -/
def reader : Reader Ipv6 := fun cs =>
  let ((front, isDotted), cs) := groupRun 8 true cs
  if h : front.length = 8 then some (⟨front, h⟩, cs)
  else if isDotted then none
  else do
    let (_, cs) ← Reader.char ':' cs
    let (_, cs) ← Reader.char ':' cs
    let ((back, _), cs) := groupRun (7 - front.length) true cs
    let ip ← ofGroups? (front ++ List.replicate (8 - front.length - back.length) 0 ++ back)
    return (ip, cs)

end Ipv6

/-- Reads the whole text as an address. -/
def Ip.ofText? (cs : List Char) : Option Ip :=
  (Reader.all Ipv4.reader cs).map .v4 <|> (Reader.all Ipv6.reader cs).map .v6

namespace Endpoint

/-- The colon and the port, digits of a value within sixteen bits. -/
def portReader : Reader UInt16 := fun cs => do
  let (_, cs) ← Reader.char ':' cs
  let (n, cs) ← Reader.number 65535 cs
  return (n.toUInt16, cs)

/-- The scope of a version 6 address, zero where none is given. -/
def scopeReader (cs : List Char) : UInt32 × List Char :=
  let given := do
    let (_, rest) ← Reader.char '%' cs
    let (n, rest) ← Reader.number 4294967295 rest
    return (n.toUInt32, rest)
  given.getD (0, cs)

def ipv4Reader : Reader Endpoint := fun cs => do
  let (ip, cs) ← Ipv4.reader cs
  let (port, cs) ← portReader cs
  return (.v4 ip port, cs)

def ipv6Reader : Reader Endpoint := fun cs => do
  let (_, cs) ← Reader.char '[' cs
  let (ip, cs) ← Ipv6.reader cs
  let (scope, cs) := scopeReader cs
  let (_, cs) ← Reader.char ']' cs
  let (port, cs) ← portReader cs
  return (.v6 ip port 0 scope, cs)

/-- Reads the whole text as an endpoint. -/
def ofText? (cs : List Char) : Option Endpoint :=
  Reader.all ipv4Reader cs <|> Reader.all ipv6Reader cs

end Endpoint

end NatBehavior
