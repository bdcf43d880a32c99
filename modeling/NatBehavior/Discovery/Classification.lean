import NatBehavior.Discovery.NatType
import NatBehavior.Probe.Response

/-! What a run of discovery found out, or why it failed. -/
namespace NatBehavior

inductive DiscoveryError where
  | transport (error : ProbeError)
  /-- A response came from where the server should not answer from. -/
  | addressMismatch
  /-- The server told no alternate address. -/
  | noOtherAddress
  | resolve (server : String) (source : IoError)
  | io (error : IoError)
deriving DecidableEq, Repr

def DiscoveryError.message : DiscoveryError → String
  | .transport e => "probe failed: " ++ e.message
  | .addressMismatch => "server error: response came from an unexpected IP/port"
  | .noOtherAddress => "server error: no changed or other address"
  | .resolve server source =>
    "failed to resolve STUN server " ++ server ++ ": " ++ source.message
  | .io e => "socket error: " ++ e.message

structure Classification where
  natType : NatType
  /-- The client's addresses as servers saw them, in order. -/
  hosts : List Host
  error : Option DiscoveryError
deriving DecidableEq, Repr

namespace Classification

def leaf (natType : NatType) (hosts : List Host) : Classification := ⟨natType, hosts, none⟩

def failed (error : DiscoveryError) (hosts : List Host) : Classification :=
  ⟨.error, hosts, some error⟩

def isOk (c : Classification) : Bool := c.error.isNone

def externalAddress (c : Classification) : Option Host := c.hosts.head?

/-- The verdict and the addresses, or the failure. -/
def toExcept (c : Classification) : Except DiscoveryError (NatType × List Host) :=
  match c.error with
  | some e => .error e
  | none => .ok (c.natType, c.hosts)

end Classification

end NatBehavior
