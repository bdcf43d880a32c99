import NatBehavior.Probe.Response
import NatBehavior.Retransmission
import NatBehavior.Stun.Encoding

/-! A probe over a datagram socket: the request is sent again and again until a response with
its transaction arrives or the waits are over. Everything else that arrives is passed over. -/
namespace NatBehavior

structure Datagram where
  payload : Bytes
  source : Endpoint

/-- What a probe needs of a socket. -/
structure Socket (m : Type → Type) where
  /-- A transaction that was not used before. -/
  fresh : m Stun.TransactionId
  transmit : Bytes → Endpoint → ExceptT IoError m Unit
  /-- The time on the clock, in nanoseconds, when a wait that begins now is over. -/
  deadline : Duration → m Nat
  /-- The next datagram, if one comes before that time. -/
  receive : Nat → ExceptT IoError m (Option Datagram)
  /-- The socket's own address as a destination sees it on the local network. -/
  ownToward : Endpoint → ExceptT IoError m Endpoint

/-- How much of a datagram is looked at. -/
def receiveLimit : Nat := 1024

/-- Reads a datagram as a message of the given transaction. -/
def replyTo? (id : Stun.TransactionId) (payload : Bytes) : Option Stun.Message :=
  match Stun.Message.decode (payload.take receiveLimit) with
  | .ok m => if m.transaction = id then some m else none
  | .error _ => none

def ChangeRequest.attributes : ChangeRequest → List Stun.Attribute
  | .none => []
  | .ipAndPort => [.changeRequest true true]
  | .port => [.changeRequest false true]

/-- The request of a probe: the change, the sender's software, and a fingerprint. -/
def probeRequest (id : Stun.TransactionId) (change : ChangeRequest) (software : Option String) :
    Stun.Message :=
  ({ Stun.Message.bindingRequest id with
      attributes := change.attributes ++ software.toList.map Stun.Attribute.software }).addFingerprint

namespace Socket

variable {m : Type → Type} [Monad m]

/-- Takes one datagram, and tells whether the wait is over with that. -/
def takeReply (socket : Socket m) (id : Stun.TransactionId) (deadline : Nat) :
    ExceptT IoError m (Unit ⊕ Option (Stun.Message × Endpoint)) := do
  match ← socket.receive deadline with
  | none => return .inr none
  | some datagram =>
    match replyTo? id datagram.payload with
    | some message => return .inr (some (message, datagram.source))
    | none => return .inl ()

/-- Waits for a reply. What is passed over does not move the deadline. -/
def awaitReply (socket : Socket m) (id : Stun.TransactionId) (deadline : Nat) :
    ExceptT IoError m (Option (Stun.Message × Endpoint)) :=
  repeatM (fun _ => socket.takeReply id deadline) ()

/-- Sends a request up to a number of times, the first wait being given. -/
def exchangeFrom (socket : Socket m) (r : Retransmission) (id : Stun.TransactionId)
    (request : Bytes) (dest : Endpoint) :
    Nat → Duration → ExceptT IoError m (Option (Stun.Message × Endpoint))
  | 0, _ => return none
  | n + 1, wait => do
    socket.transmit request dest
    let deadline ← socket.deadline wait
    match ← socket.awaitReply id deadline with
    | some reply => return some reply
    | none => socket.exchangeFrom r id request dest n (r.next wait)

/-- Sends a request by its schedule until a reply arrives. -/
def exchange (socket : Socket m) (r : Retransmission) (request : Stun.Message) (dest : Endpoint) :
    ExceptT IoError m (Option (Stun.Message × Endpoint)) :=
  socket.exchangeFrom r request.transaction request.encode dest r.transmissions r.first

/-- Sends one probe and reads its response. -/
def probe (socket : Socket m) (r : Retransmission) (software : Option String) (dest : Host)
    (change : ChangeRequest) : m ProbeOutcome := do
  let id ← socket.fresh
  let target := dest.toEndpoint
  match ← (socket.exchange r (probeRequest id change software) target).run with
  | .error e => return .error (.io e)
  | .ok none => return .ok none
  | .ok (some (message, source)) =>
    match ← (socket.ownToward target).run with
    | .error e => return .error (.io e)
    | .ok own => return (Response.ofMessage message source own).map some

end Socket

end NatBehavior
