import NatBehavior.Address.Reader
import NatBehavior.IoError

/-! The text of a server: a host and a port, divided at the last colon. -/
namespace NatBehavior

/-- Splits at the last occurrence of a character. -/
def splitLast? (c : Char) (cs : List Char) : Option (List Char × List Char) :=
  let back := cs.reverse
  let last := back.takeWhile (· ≠ c)
  match back.drop last.length with
  | [] => none
  | _ :: front => some (front.reverse, last.reverse)

/-- What a server's text asks of a resolver: nothing where it is an address already, else a
name and a port, divided at the last colon. -/
def serverAddresses (names : String → Except IoError (List Ip)) (server : String) :
    Except IoError (List Endpoint) :=
  match Endpoint.ofText? server.toList with
  | some endpoint => .ok [endpoint]
  | none =>
    match splitLast? ':' server.toList with
    | none => .error ⟨.invalidInput, "invalid socket address"⟩
    | some (name, port) =>
      match Numeral.readSigned? 65535 port with
      | none => .error ⟨.invalidInput, "invalid port value"⟩
      | some port => (names (String.ofList name)).map (·.map (.ofIp · port.toUInt16))

end NatBehavior
