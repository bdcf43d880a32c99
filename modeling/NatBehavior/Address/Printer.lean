import NatBehavior.Address.Basic

/-! The text of addresses. Version 6 follows RFC 5952: the longest run of two or more zero
groups, the first of equals, is written as two colons, groups are lowercase hexadecimal
without leading zeros, and a mapped address ends in dotted decimal. -/
namespace NatBehavior

def Ipv4.text (ip : Ipv4) : List Char :=
  let octet (b : UInt8) := Nat.toDigits 10 b.toNat
  octet ip.a ++ '.' :: octet ip.b ++ '.' :: octet ip.c ++ '.' :: octet ip.d

namespace Ipv6

def zeroRun (groups : List UInt16) : Nat :=
  (groups.takeWhile (· == 0)).length

/-- Where the longest run of zero groups starts, the first of equals, and how long it is. -/
def longestZeroRun (groups : List UInt16) : Nat × Nat :=
  (List.range groups.length).foldl (fun best start =>
    let n := zeroRun (groups.drop start)
    if best.2 < n then (start, n) else best) (0, 0)

def joinGroups (groups : List UInt16) : List Char :=
  [':'].intercalate (groups.map fun g => Nat.toDigits 16 g.toNat)

def text (ip : Ipv6) : List Char :=
  match ip.mapped? with
  | some mapped => "::ffff:".toList ++ mapped.text
  | none =>
    let (start, n) := longestZeroRun ip.groups
    if n < 2 then joinGroups ip.groups
    else joinGroups (ip.groups.take start) ++ ':' :: ':' :: joinGroups (ip.groups.drop (start + n))

end Ipv6

def Ip.text : Ip → List Char
  | .v4 ip => ip.text
  | .v6 ip => ip.text

namespace Endpoint

/-- The scope is written only when it is not zero. -/
def scopeText (scope : UInt32) : List Char :=
  if scope = 0 then [] else '%' :: Nat.toDigits 10 scope.toNat

def text : Endpoint → List Char
  | .v4 ip port => ip.text ++ ':' :: Nat.toDigits 10 port.toNat
  | .v6 ip port _ scope =>
    '[' :: ip.text ++ scopeText scope ++ ']' :: ':' :: Nat.toDigits 10 port.toNat

instance : ToString Endpoint := ⟨fun endpoint => String.ofList endpoint.text⟩

end Endpoint

instance : ToString Ip := ⟨fun ip => String.ofList ip.text⟩

end NatBehavior
