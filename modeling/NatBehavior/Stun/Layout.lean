import NatBehavior.Stun.Message

/-! Numbers of the wire format shared by writing and reading. -/
namespace NatBehavior.Stun

/-- The four bytes that mark a message of RFC 5389. -/
def magicCookie : UInt32 := 0x2112A442

/-- What a checksum is masked with to become a fingerprint. -/
def fingerprintMask : UInt32 := 0x5354554E

namespace AttributeType

def mappedAddress : UInt16 := 0x0001
def changeRequest : UInt16 := 0x0003
def changedAddress : UInt16 := 0x0005
def errorCode : UInt16 := 0x0009
def xorMappedAddress : UInt16 := 0x0020
/-- The code that servers used before the masked address was standardised. -/
def xorMappedAddressDraft : UInt16 := 0x8020
def software : UInt16 := 0x8022
def fingerprint : UInt16 := 0x8028
def otherAddress : UInt16 := 0x802C

end AttributeType

def Attribute.type : Attribute → UInt16
  | .mappedAddress _ => AttributeType.mappedAddress
  | .changeRequest _ _ => AttributeType.changeRequest
  | .changedAddress _ => AttributeType.changedAddress
  | .errorCode _ _ => AttributeType.errorCode
  | .xorMappedAddress _ => AttributeType.xorMappedAddress
  | .software _ => AttributeType.software
  | .fingerprint _ => AttributeType.fingerprint
  | .otherAddress _ => AttributeType.otherAddress
  | .unknown type _ => type

/-- The type word of a binding message: the method's lowest bit, and the class in bits 4 and 8. -/
def MessageClass.typeWord : MessageClass → UInt16
  | .request => 0x0001
  | .indication => 0x0011
  | .success => 0x0101
  | .error => 0x0111

def MessageClass.ofTypeWord? (word : UInt16) : Option MessageClass :=
  if word = 0x0001 then some .request
  else if word = 0x0011 then some .indication
  else if word = 0x0101 then some .success
  else if word = 0x0111 then some .error
  else none

@[simp] theorem MessageClass.ofTypeWord?_typeWord (c : MessageClass) :
    ofTypeWord? c.typeWord = some c := by
  cases c <;> rfl

/-- Address families. -/
def familyIpv4 : UInt8 := 1
def familyIpv6 : UInt8 := 2

/-- Bits of a change request. -/
def changeIpBit : UInt32 := 4
def changePortBit : UInt32 := 2

/-- How many bytes bring a length up to a multiple of four. -/
def padding (n : Nat) : Nat := (4 - n % 4) % 4

/-- The bytes an address is masked with, as many as the longest address has. -/
def maskBytes (id : TransactionId) : Bytes :=
  Bytes.ofWord32 magicCookie ++ id.bytes

/-- Masks an address with the cookie and the transaction. Masking twice gives the address back,
without the scope and the flow label, which no message carries. -/
def mask (id : TransactionId) : Endpoint → Endpoint
  | .v4 ip port =>
    .v4 ⟨ip.a ^^^ 0x21, ip.b ^^^ 0x12, ip.c ^^^ 0xA4, ip.d ^^^ 0x42⟩ (port ^^^ 0x2112)
  | .v6 ip port _ _ =>
    .v6 ⟨List.zipWith (· ^^^ ·) ip.groups (Ipv6.joinPairs (maskBytes id)), by
        obtain ⟨bytes, h⟩ := id
        match bytes, h with
        | [_, _, _, _, _, _, _, _, _, _, _, _], _ => simp [ip.length_groups, maskBytes,
          Bytes.ofWord32, Ipv6.joinPairs]⟩
      (port ^^^ 0x2112) 0 0

end NatBehavior.Stun
