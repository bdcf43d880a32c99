import NatBehavior.Bytes

/-! Internet addresses and UDP endpoints as values. An endpoint of version 6 also carries a
flow label and a scope, which travel on no wire. -/
namespace NatBehavior

structure Ipv4 where
  a : UInt8
  b : UInt8
  c : UInt8
  d : UInt8
deriving DecidableEq, Repr

/-- Eight groups of sixteen bits, most significant first. -/
structure Ipv6 where
  groups : List UInt16
  length_groups : groups.length = 8
deriving DecidableEq, Repr

inductive Ip where
  | v4 (address : Ipv4)
  | v6 (address : Ipv6)
deriving DecidableEq, Repr

inductive Endpoint where
  | v4 (ip : Ipv4) (port : UInt16)
  | v6 (ip : Ipv6) (port : UInt16) (flow scope : UInt32)
deriving DecidableEq, Repr

namespace Ipv4

def unspecified : Ipv4 := ⟨0, 0, 0, 0⟩

def octets (ip : Ipv4) : Bytes := [ip.a, ip.b, ip.c, ip.d]

def ofOctets? : Bytes → Option Ipv4
  | [a, b, c, d] => some ⟨a, b, c, d⟩
  | _ => none

@[simp] theorem length_octets (ip : Ipv4) : ip.octets.length = 4 := rfl

@[simp] theorem ofOctets?_octets (ip : Ipv4) : ofOctets? ip.octets = some ip := rfl

end Ipv4

namespace Ipv6

@[ext] theorem ext {x y : Ipv6} (h : x.groups = y.groups) : x = y := by
  cases x; cases y; simp_all

def ofGroups? (groups : List UInt16) : Option Ipv6 :=
  if h : groups.length = 8 then some ⟨groups, h⟩ else none

@[simp] theorem ofGroups?_groups (ip : Ipv6) : ofGroups? ip.groups = some ip := by
  simp [ofGroups?, ip.length_groups]

def unspecified : Ipv6 := ⟨List.replicate 8 0, rfl⟩

def octets (ip : Ipv6) : Bytes :=
  ip.groups.flatMap Bytes.ofWord16

/-- Joins bytes two by two; a last byte without a partner is dropped. -/
def joinPairs : Bytes → List UInt16
  | a :: b :: bytes => Bytes.word16 a b :: joinPairs bytes
  | _ => []

def ofOctets? (bytes : Bytes) : Option Ipv6 :=
  if bytes.length = 16 then ofGroups? (joinPairs bytes) else none

theorem length_flatMap_ofWord16 (ws : List UInt16) :
    (ws.flatMap Bytes.ofWord16).length = 2 * ws.length := by
  induction ws with
  | nil => rfl
  | cons w ws ih => simp [List.flatMap_cons, ih]; omega

theorem joinPairs_flatMap_ofWord16 (ws : List UInt16) :
    joinPairs (ws.flatMap Bytes.ofWord16) = ws := by
  induction ws with
  | nil => rfl
  | cons w ws ih =>
    simp only [List.flatMap_cons, Bytes.ofWord16, List.cons_append, List.nil_append, joinPairs,
      Bytes.word16_ofWord16]
    exact congrArg _ ih

@[simp] theorem length_octets (ip : Ipv6) : ip.octets.length = 16 := by
  rw [octets, length_flatMap_ofWord16, ip.length_groups]

@[simp] theorem ofOctets?_octets (ip : Ipv6) : ofOctets? ip.octets = some ip := by
  rw [ofOctets?, if_pos ip.length_octets, octets, joinPairs_flatMap_ofWord16, ofGroups?_groups]

/-- The six groups in front of an embedded version 4 address. -/
def mappedFront : List UInt16 := [0, 0, 0, 0, 0, 0xFFFF]

/-- The version 4 address of a mapped address, two octets in each of the last two groups. -/
def mapped? (ip : Ipv6) : Option Ipv4 :=
  if ip.groups.take 6 = mappedFront then
    Ipv4.ofOctets? ((ip.groups.drop 6).flatMap Bytes.ofWord16)
  else none

/-- The two groups of a version 4 address at the end of a version 6 address. -/
def embedded (ip : Ipv4) : List UInt16 :=
  [Bytes.word16 ip.a ip.b, Bytes.word16 ip.c ip.d]

/-- A version 4 address as dual-stack sockets report it. -/
def ofIpv4 (ip : Ipv4) : Ipv6 :=
  ⟨mappedFront ++ embedded ip, rfl⟩

end Ipv6

namespace Ip

def isIpv4 : Ip → Bool
  | .v4 _ => true
  | .v6 _ => false

def isUnspecified : Ip → Bool
  | .v4 ip => ip = .unspecified
  | .v6 ip => ip = .unspecified

/-- A mapped address becomes the version 4 address it stands for. -/
def canonical : Ip → Ip
  | .v4 ip => .v4 ip
  | .v6 ip => match ip.mapped? with
    | some mapped => .v4 mapped
    | none => .v6 ip

@[simp] theorem canonical_canonical (ip : Ip) : ip.canonical.canonical = ip.canonical := by
  cases ip with
  | v4 => rfl
  | v6 ip => cases h : ip.mapped? <;> simp [canonical, h]

end Ip

namespace Endpoint

def ofIp : Ip → UInt16 → Endpoint
  | .v4 ip, port => .v4 ip port
  | .v6 ip, port => .v6 ip port 0 0

def ip : Endpoint → Ip
  | .v4 ip _ => .v4 ip
  | .v6 ip _ _ _ => .v6 ip

def port : Endpoint → UInt16
  | .v4 _ port => port
  | .v6 _ port _ _ => port

def isIpv4 (endpoint : Endpoint) : Bool := endpoint.ip.isIpv4

@[simp] theorem ip_ofIp (ip : Ip) (port : UInt16) : (ofIp ip port).ip = ip := by
  cases ip <;> rfl

@[simp] theorem port_ofIp (ip : Ip) (port : UInt16) : (ofIp ip port).port = port := by
  cases ip <;> rfl

end Endpoint

end NatBehavior
