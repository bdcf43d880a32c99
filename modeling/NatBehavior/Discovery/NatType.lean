/-! The kinds of address translation that discovery tells apart. -/
namespace NatBehavior

inductive NatType where
  /-- Discovery failed. -/
  | error
  /-- Discovery reached no verdict. -/
  | unknown
  /-- No datagram passes. -/
  | blocked
  /-- No translation. -/
  | openInternet
  /-- One mapping, open to everyone. -/
  | full
  /-- A mapping for each destination. -/
  | symmetric
  /-- No translation, but only contacted endpoints may answer. -/
  | symmetricUdpFirewall
  /-- One mapping, open to contacted addresses. -/
  | restricted
  /-- One mapping, open to contacted endpoints. -/
  | portRestricted
deriving DecidableEq, Repr

namespace NatType

def all : List NatType :=
  [error, unknown, blocked, openInternet, full, symmetric, symmetricUdpFirewall, restricted,
    portRestricted]

/-- The name in machine-readable reports. -/
def name : NatType → String
  | error => "error"
  | unknown => "unknown"
  | blocked => "blocked"
  | openInternet => "none"
  | full => "full"
  | symmetric => "symmetric"
  | symmetricUdpFirewall => "symmetric_udp_firewall"
  | restricted => "restricted"
  | portRestricted => "port_restricted"

def ofName? (name : String) : Option NatType := all.find? (·.name = name)

/-- The name in reports for people. -/
def description : NatType → String
  | error => "NAT Error"
  | unknown => "Unknown NAT Type"
  | blocked => "UDP Blocked"
  | openInternet => "Open Internet (No NAT)"
  | full => "Full Cone NAT"
  | symmetric => "Symmetric NAT"
  | symmetricUdpFirewall => "Symmetric UDP Firewall"
  | restricted => "Restricted Cone NAT"
  | portRestricted => "Port Restricted Cone NAT"

/-- Whether one mapping serves all destinations. -/
def isCone : NatType → Bool
  | full | restricted | portRestricted => true
  | _ => false

def isError : NatType → Bool
  | error => true
  | _ => false

/-- Whether discovery reached a verdict. -/
def isDefinitive : NatType → Bool
  | error | unknown => false
  | _ => true

theorem ofName?_name (t : NatType) : ofName? t.name = some t := by
  cases t <;> decide

end NatType

end NatBehavior
