import NatBehavior.Checksum
import NatBehavior.Stun.Layout

/-! Writing messages. Length fields hold sixteen bits and wrap; attributes are padded with
zeros to multiples of four bytes. -/
namespace NatBehavior.Stun

/-- The value layout shared by all address attributes. -/
def addressValue : Endpoint → Bytes
  | .v4 ip port => [0, familyIpv4] ++ Bytes.ofWord16 port ++ ip.octets
  | .v6 ip port _ _ => [0, familyIpv6] ++ Bytes.ofWord16 port ++ ip.octets

/-- The bits of a change request. -/
def changeFlags (ip port : Bool) : UInt32 :=
  (if ip then changeIpBit else 0) ||| (if port then changePortBit else 0)

namespace Attribute

def value (id : TransactionId) : Attribute → Bytes
  | .mappedAddress address => addressValue address
  | .changeRequest ip port => Bytes.ofWord32 (changeFlags ip port)
  | .changedAddress address => addressValue address
  | .errorCode code reason =>
    [0, 0, (code.toNat / 100 % 8).toUInt8, (code.toNat % 100).toUInt8] ++ Utf8.encode reason
  | .xorMappedAddress address => addressValue (mask id address)
  | .software name => Utf8.encode name
  | .fingerprint value => Bytes.ofWord32 value
  | .otherAddress address => addressValue address
  | .unknown _ data => data

def encode (id : TransactionId) (item : Attribute) : Bytes :=
  let value := item.value id
  Bytes.ofWord16 item.type ++ Bytes.ofWord16 value.length.toUInt16 ++ value
    ++ List.replicate (padding value.length) 0

end Attribute

/-- The twenty bytes in front of a body of the given length. -/
def header (c : MessageClass) (length : Nat) (id : TransactionId) : Bytes :=
  Bytes.ofWord16 c.typeWord ++ Bytes.ofWord16 length.toUInt16 ++ Bytes.ofWord32 magicCookie
    ++ id.bytes

namespace Message

def body (m : Message) : Bytes :=
  m.attributes.flatMap (·.encode m.transaction)

def encode (m : Message) : Bytes :=
  header m.messageClass m.body.length m.transaction ++ m.body

/-- Replaces all fingerprints by one at the end. Its checksum covers the message in front of it
under a header whose length counts the eight bytes of the fingerprint too. -/
def addFingerprint (m : Message) : Message :=
  let bare := { m with attributes := m.attributes.filter (!·.isFingerprint) }
  let covered := header bare.messageClass (bare.body.length + 8) bare.transaction ++ bare.body
  bare.add (.fingerprint (Checksum.crc32 covered ^^^ fingerprintMask))

end Message

end NatBehavior.Stun
