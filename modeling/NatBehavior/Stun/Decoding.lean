import NatBehavior.Checksum
import NatBehavior.Stun.Layout

/-! Reading messages. Malformed values of known types are passed over; a fingerprint that is
present must match the bytes in front of it. The checksum register runs along with the
records, so every byte is taken in once. -/
namespace NatBehavior.Stun

inductive StunError where
  | messageTooShort
  | invalidMagicCookie
  | invalidMessageType
  | invalidAttribute
  | missingAttribute
  | unexpectedClass (c : MessageClass)
  | fingerprintMismatch
deriving DecidableEq, Repr

def MessageClass.label : MessageClass → String
  | .request => "Request"
  | .indication => "Indication"
  | .success => "SuccessResponse"
  | .error => "ErrorResponse"

def StunError.message : StunError → String
  | .messageTooShort => "STUN message too short"
  | .invalidMagicCookie => "Invalid STUN magic cookie"
  | .invalidMessageType => "Invalid STUN message type"
  | .invalidAttribute => "Invalid STUN attribute"
  | .missingAttribute => "Missing required STUN attribute"
  | .unexpectedClass c => "Unexpected STUN message class: " ++ c.label
  | .fingerprintMismatch => "FINGERPRINT verification failed"

/-- Reads an address value; its first byte and what follows the address are ignored. -/
def addressOfValue? : Bytes → Option Endpoint
  | _ :: family :: p :: q :: rest =>
    let port := Bytes.word16 p q
    if family = familyIpv4 then (Ipv4.ofOctets? (rest.take 4)).map (.v4 · port)
    else if family = familyIpv6 then (Ipv6.ofOctets? (rest.take 16)).map (.v6 · port 0 0)
    else none
  | _ => none

/-- Reads a value of exactly four bytes. -/
def word32OfValue? : Bytes → Option UInt32
  | [a, b, c, d] => some (Bytes.word32 a b c d)
  | _ => none

def errorCodeOfValue? : Bytes → Option Attribute
  | _ :: _ :: hundreds :: number :: reason =>
    some (.errorCode (hundreds.toNat % 8 * 100 + number.toNat).toUInt16 (Utf8.decodeLenient reason))
  | _ => none

/-- Reads the value of an attribute, or nothing where it is malformed. -/
def Attribute.ofValue? (id : TransactionId) (type : UInt16) (value : Bytes) : Option Attribute :=
  if type = AttributeType.mappedAddress then (addressOfValue? value).map .mappedAddress
  else if type = AttributeType.changedAddress then (addressOfValue? value).map .changedAddress
  else if type = AttributeType.otherAddress then (addressOfValue? value).map .otherAddress
  else if type = AttributeType.xorMappedAddress ∨ type = AttributeType.xorMappedAddressDraft then
    (addressOfValue? value).map fun address => .xorMappedAddress (mask id address)
  else if type = AttributeType.changeRequest then
    (word32OfValue? value).map fun flags =>
      .changeRequest (flags &&& changeIpBit ≠ 0) (flags &&& changePortBit ≠ 0)
  else if type = AttributeType.errorCode then errorCodeOfValue? value
  else if type = AttributeType.software then some (.software (Utf8.decodeLenient value))
  else if type = AttributeType.fingerprint then (word32OfValue? value).map .fingerprint
  else some (.unknown type value)

/-- Whether a fingerprint matches the checksum register of the bytes in front of it. Any other
attribute does. -/
def Attribute.verifies (register : UInt32) : Attribute → Bool
  | .fingerprint value => Checksum.finish register ^^^ fingerprintMask = value
  | _ => true

/-- Reads records up to the end of the body, where up to three bytes may be left over and the
padding of the last record may be missing. -/
def decodeAttributes (id : TransactionId) (register : UInt32) :
    Bytes → Except StunError (List Attribute)
  | t :: u :: l :: m :: rest =>
    let length := (Bytes.word16 l m).toNat
    let value := rest.take length
    if value.length < length then .error .invalidAttribute
    else
      let record := length + padding length
      let next := Checksum.feed (Checksum.feed register [t, u, l, m]) (rest.take record)
      match Attribute.ofValue? id (Bytes.word16 t u) value with
      | none => decodeAttributes id next (rest.drop record)
      | some item =>
        if item.verifies register then
          (decodeAttributes id next (rest.drop record)).map (item :: ·)
        else .error .fingerprintMismatch
  | _ => .ok []
  termination_by body => body.length
  decreasing_by all_goals simp only [List.length_cons, List.length_drop]; omega

namespace Message

/-- Reads a message; bytes after the declared length are ignored. -/
def decode (bytes : Bytes) : Except StunError Message :=
  match bytes with
  | t :: u :: l :: m :: c₁ :: c₂ :: c₃ :: c₄ :: rest =>
    match TransactionId.ofBytes? (rest.take 12) with
    | none => .error .messageTooShort
    | some id =>
      let length := (Bytes.word16 l m).toNat
      let body := (rest.drop 12).take length
      if Bytes.word32 c₁ c₂ c₃ c₄ ≠ magicCookie then .error .invalidMagicCookie
      else if body.length < length then .error .messageTooShort
      else match MessageClass.ofTypeWord? (Bytes.word16 t u) with
        | none => .error .invalidMessageType
        | some messageClass =>
          let register := Checksum.feed Checksum.preset (bytes.take 20)
          (decodeAttributes id register body).map (⟨messageClass, id, ·⟩)
  | _ => .error .messageTooShort

end Message

end NatBehavior.Stun
