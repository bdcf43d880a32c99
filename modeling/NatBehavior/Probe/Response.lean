import NatBehavior.Host
import NatBehavior.IoError
import NatBehavior.Stun.Decoding

/-! One probe of discovery: the change it asks for, what its response tells, and how it fails.
Silence is no failure. -/
namespace NatBehavior

/-- Where a server is asked to answer from. -/
inductive ChangeRequest where
  /-- The address the request was sent to: test I. -/
  | none
  /-- Another address and another port: test II. -/
  | ipAndPort
  /-- The same address and another port: test III. -/
  | port
deriving DecidableEq, Repr

inductive ProbeError where
  | io (error : IoError)
  | stun (error : Stun.StunError)
  | errorResponse (code : UInt16) (reason : String)
deriving DecidableEq, Repr

def ProbeError.message : ProbeError → String
  | .io e => "I/O error: " ++ e.message
  | .stun e => "invalid STUN response: " ++ e.message
  | .errorResponse code reason =>
    "STUN error response " ++ toString code.toNat ++ ": " ++ reason

structure Response where
  /-- The client as the server saw it. -/
  mapped : Host
  /-- Where the response came from. -/
  server : Host
  /-- The server's alternate address by RFC 3489. -/
  changed : Option Host
  /-- The server's alternate address by RFC 5780. -/
  other : Option Host
  /-- Whether the server saw the client's own address. -/
  identical : Bool
deriving DecidableEq, Repr

namespace Response

/-- The server's alternate address, the older attribute first. -/
def alternate (r : Response) : Option Host := r.changed <|> r.other

/-- What a decoded message tells, given where it came from and the client's own address. -/
def ofMessage (m : Stun.Message) (source own : Endpoint) : Except ProbeError Response :=
  match m.messageClass with
  | .success =>
    match m.mappedAddress with
    | none => .error (.stun .missingAttribute)
    | some address =>
      let mapped := Host.ofEndpoint address
      .ok ⟨mapped, .ofEndpoint source, m.changedAddress.map .ofEndpoint,
        m.otherAddress.map .ofEndpoint, mapped = .ofEndpoint own⟩
  | .error =>
    match m.errorCode with
    | some (code, reason) => .error (.errorResponse code reason)
    | none => .error (.errorResponse 0 "no ERROR-CODE attribute")
  | c => .error (.stun (.unexpectedClass c))

def text (r : Response) : String :=
  "mapped=" ++ toString r.mapped ++ " server=" ++ toString r.server
    ++ " identical=" ++ toString r.identical
    ++ (match r.changed with | some host => " changed=" ++ toString host | none => "")
    ++ (match r.other with | some host => " other=" ++ toString host | none => "")

end Response

/-- What became of a probe: a failure, silence or a response. -/
abbrev ProbeOutcome := Except ProbeError (Option Response)

end NatBehavior
