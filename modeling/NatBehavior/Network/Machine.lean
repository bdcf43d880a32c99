import NatBehavior.Address.Basic
import NatBehavior.IoError

/-! What a machine's network lets an ordinary user do with datagram sockets. -/
namespace NatBehavior

namespace Ipv6

/-- Addresses of groups begin with eight set bits. -/
def isMulticast (ip : Ipv6) : Bool := (ip.groups.headD 0).toNat / 256 = 255

/-- Addresses that mean something only together with an interface: those of hosts on one link,
and those of groups within one interface or on one link. -/
def needsScope (ip : Ipv6) : Bool :=
  let first := (ip.groups.headD 0).toNat
  first / 64 = 1018 || (ip.isMulticast && (first % 16 = 1 || first % 16 = 2))

end Ipv6

structure Machine where
  /-- Addresses that sockets may be bound to. -/
  owns : Ip → Bool
  /-- The address that datagrams of a socket bound to the first address leave from toward the
  second, or why none leave. -/
  sourceToward : Ip → Ip → Except OsError Ip
  /-- Whether what leaves arrives. -/
  delivers : Bool

namespace Machine

/-- A machine with a loopback interface only. -/
def loopback : Machine where
  owns ip := ip.canonical.isUnspecified || (local? ip.canonical).isSome
  sourceToward bound dest :=
    match local? dest with
    | some ip => .ok (if bound.isUnspecified then ip else bound)
    | none => .error .networkUnreachable
  delivers := true
where
  local? : Ip → Option Ip
    | .v4 ip => if ip.a = 127 then some (.v4 ⟨127, 0, 0, 1⟩) else none
    | .v6 ip => if ip.groups = [0, 0, 0, 0, 0, 0, 0, 1] then some (.v6 ip) else none

/-- A machine whose only interface is down. Every version 4 address may be bound. Only what is
sent to the unspecified address leaves, and is lost; sockets of version 6 that are bound to a
mapped address take it for the source, which leads nowhere. -/
def isolated : Machine where
  owns
    | .v4 _ => true
    | .v6 ip => ip = .unspecified || ip.mapped?.isSome || ip.isMulticast
  sourceToward
    | .v4 _, dest => toward dest
    | .v6 ip, dest =>
      match ip.mapped? with
      | none => toward dest
      | some ip =>
        if ip = .unspecified && dest.isIpv4 then toward dest else .error .networkUnreachable
  delivers := false
where
  toward : Ip → Except OsError Ip
    | .v4 ip => if ip = .unspecified then .ok (.v4 ⟨127, 0, 0, 1⟩) else .error .networkUnreachable
    | .v6 _ => .error .addressNotAvailable

/-- Ports that ordinary users may not bind. -/
def isPrivileged (port : UInt16) : Bool := 0 < port && port < 1024

/-- Whether a socket bound to the first address gets what is sent to the second. An unspecified
address of version 6 stands for those of both versions. -/
def covers (bound ip : Ip) : Bool :=
  bound.canonical = ip.canonical || (bound.canonical.isUnspecified &&
    (!bound.canonical.isIpv4 || ip.canonical.isIpv4))

/-- Two sockets may not get the same datagrams. -/
def conflict (x y : Endpoint) : Bool :=
  x.port = y.port && x.port ≠ 0 && (covers x.ip y.ip || covers y.ip x.ip)

/-- The loopback interface is the only one. -/
def interfaceName : String := "lo"
def interfaceNumber : UInt32 := 1

/-- What is wrong with the scope of an address. -/
def scopeError? : Endpoint → Option OsError
  | .v4 .. => none
  | .v6 ip _ _ scope =>
    if !ip.needsScope || scope = interfaceNumber then none
    else if scope = 0 then some .invalidArgument
    else some .noSuchDevice

/-- Why a socket cannot be bound beside those that are. With version 4 the address is looked at
before the port, with version 6 the port before the address. -/
def bindError? (machine : Machine) (others : List Endpoint) (address : Endpoint) :
    Option OsError :=
  if !address.isIpv4 && isPrivileged address.port then some .permissionDenied
  else match scopeError? address with
    | some e => some e
    | none =>
      if !machine.owns address.ip then some .addressNotAvailable
      else if isPrivileged address.port then some .permissionDenied
      else if others.any (conflict address) then some .addressInUse
      else none

/-- Whether sockets can be bound one after another beside those that are. -/
def admits (machine : Machine) (others : List Endpoint) : List Endpoint → Bool
  | [] => true
  | address :: rest =>
    (machine.bindError? others address).isNone && machine.admits (address :: others) rest

/-- The longest datagram that a length field can tell, and the longest that a packet of
version 4 can hold. -/
def tellable : Nat := 65535
def sendable : Nat := 65507

/-- Sockets of version 6 send to version 4 unless they are bound to an address that only
version 6 has. -/
def speaksIpv4 (bound : Ip) : Bool := bound.isUnspecified || bound.canonical.isIpv4

/-- The address that a destination stands for. A socket bound to a mapped address takes the
unspecified address of version 6 for the loopback address of version 4. -/
def target (bound dest : Ip) : Ip :=
  if dest = .v6 .unspecified && bound ≠ bound.canonical then .v4 ⟨127, 0, 0, 1⟩ else dest

/-- Why a datagram of some size cannot be sent from a bound socket, in the order of the checks. -/
def sendError? (machine : Machine) (bound dest : Endpoint) (size : Nat) : Option OsError :=
  let ip := target bound.ip dest.ip
  if ip.isIpv4 && !speaksIpv4 bound.ip then some .networkUnreachable
  else if (bound.isIpv4 || ip.isIpv4) && tellable < size then some .messageTooLong
  else if bound.isIpv4 && !ip.isIpv4 then some .addressFamily
  else if dest.port = 0 then some .invalidArgument
  else match machine.sourceToward bound.ip ip with
    | .error e => some e
    | .ok _ => if sendable < size then some .messageTooLong else none

/-- A bound socket's own address as a destination sees it: an unspecified address is replaced by
the one that datagrams leave from. -/
def ownToward (machine : Machine) (bound dest : Endpoint) : Except OsError Endpoint :=
  if !bound.ip.isUnspecified then .ok bound
  else (machine.sourceToward bound.ip dest.ip).map (.ofIp · bound.port)

end Machine

end NatBehavior
