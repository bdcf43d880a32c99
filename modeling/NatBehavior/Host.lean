import NatBehavior.Address.Printer
import NatBehavior.Address.Reader

/-! Transport identity: an address and a port, with mapped version 6 addresses folded into
version 4. A dual-stack socket and a version 4 socket thus report the same host. -/
namespace NatBehavior

structure Host where
  ip : Ip
  port : UInt16
  canonical : ip.canonical = ip
deriving DecidableEq, Repr

namespace Host

@[ext] theorem ext {x y : Host} (hip : x.ip = y.ip) (hport : x.port = y.port) : x = y := by
  cases x; cases y; simp_all

def ofIp (ip : Ip) (port : UInt16) : Host :=
  ⟨ip.canonical, port, ip.canonical_canonical⟩

/-- Scope and flow label are dropped. -/
def ofEndpoint (endpoint : Endpoint) : Host :=
  ofIp endpoint.ip endpoint.port

/-- The endpoint that datagrams to the host are sent to. -/
def toEndpoint (host : Host) : Endpoint :=
  .ofIp host.ip host.port

def isIpv4 (host : Host) : Bool := host.ip.isIpv4

def text (host : Host) : List Char := host.toEndpoint.text

def ofText? (cs : List Char) : Option Host :=
  (Endpoint.ofText? cs).map ofEndpoint

instance : ToString Host := ⟨fun host => String.ofList host.text⟩

@[simp] theorem ofEndpoint_toEndpoint (host : Host) : ofEndpoint host.toEndpoint = host := by
  apply ext
  · simp [ofEndpoint, toEndpoint, ofIp, host.canonical]
  · simp [ofEndpoint, toEndpoint, ofIp]

end Host

end NatBehavior
