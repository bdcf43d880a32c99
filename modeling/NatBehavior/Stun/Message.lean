import NatBehavior.Address.Basic
import NatBehavior.Text.Utf8

/-! Binding messages of STUN: a class, a transaction and attributes in order. Attributes are
those that discovery reads (RFC 3489, RFC 5389, RFC 5780); all others keep their raw bytes. -/
namespace NatBehavior.Stun

inductive MessageClass where
  | request
  | indication
  | success
  | error
deriving DecidableEq, Repr

/-- The 96 bits that tie a response to its request. -/
structure TransactionId where
  bytes : Bytes
  length_bytes : bytes.length = 12
deriving DecidableEq, Repr

namespace TransactionId

@[ext] theorem ext {x y : TransactionId} (h : x.bytes = y.bytes) : x = y := by
  cases x; cases y; simp_all

def ofBytes? (bytes : Bytes) : Option TransactionId :=
  if h : bytes.length = 12 then some ⟨bytes, h⟩ else none

@[simp] theorem ofBytes?_bytes (id : TransactionId) : ofBytes? id.bytes = some id := by
  simp [ofBytes?, id.length_bytes]

def zero : TransactionId := ⟨List.replicate 12 0, rfl⟩

end TransactionId

inductive Attribute where
  | mappedAddress (address : Endpoint)
  | changeRequest (ip port : Bool)
  | changedAddress (address : Endpoint)
  | errorCode (code : UInt16) (reason : String)
  | xorMappedAddress (address : Endpoint)
  | software (name : String)
  /-- The checksum in its masked form. -/
  | fingerprint (value : UInt32)
  | otherAddress (address : Endpoint)
  | unknown (type : UInt16) (data : Bytes)
deriving DecidableEq, Repr

def Attribute.isFingerprint : Attribute → Bool
  | .fingerprint _ => true
  | _ => false

structure Message where
  messageClass : MessageClass
  transaction : TransactionId
  attributes : List Attribute
deriving DecidableEq, Repr

namespace Message

def bindingRequest (transaction : TransactionId) : Message :=
  ⟨.request, transaction, []⟩

def bindingResponse (transaction : TransactionId) : Message :=
  ⟨.success, transaction, []⟩

def add (m : Message) (item : Attribute) : Message :=
  { m with attributes := m.attributes ++ [item] }

def xorMappedAddress (m : Message) : Option Endpoint :=
  m.attributes.findSome? fun
    | .xorMappedAddress address => some address
    | _ => none

def plainMappedAddress (m : Message) : Option Endpoint :=
  m.attributes.findSome? fun
    | .mappedAddress address => some address
    | _ => none

/-- The client's address as the server saw it, masked before plain. -/
def mappedAddress (m : Message) : Option Endpoint :=
  m.xorMappedAddress <|> m.plainMappedAddress

def changedAddress (m : Message) : Option Endpoint :=
  m.attributes.findSome? fun
    | .changedAddress address => some address
    | _ => none

def otherAddress (m : Message) : Option Endpoint :=
  m.attributes.findSome? fun
    | .otherAddress address => some address
    | _ => none

def errorCode (m : Message) : Option (UInt16 × String) :=
  m.attributes.findSome? fun
    | .errorCode code reason => some (code, reason)
    | _ => none

/-- The changes of address and port asked for, none where no attribute asks. -/
def changeRequest (m : Message) : Bool × Bool :=
  (m.attributes.findSome? fun
    | .changeRequest ip port => some (ip, port)
    | _ => none).getD (false, false)

end Message

end NatBehavior.Stun
