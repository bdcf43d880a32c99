import NatBehavior.Proofs.Text.Utf8
import NatBehavior.Stun.Decoding
import NatBehavior.Stun.Encoding

/-! Attribute values read back. Masking is undone by masking, and a value keeps everything of
its attribute but scopes, flow labels, the hundreds of an error code past seven, and a raw type
that has a meaning of its own. -/
namespace NatBehavior

namespace Endpoint

/-- What of an endpoint travels. -/
def bare (e : Endpoint) : Endpoint := ofIp e.ip e.port

theorem bare_eq_self_iff {e : Endpoint} :
    e.bare = e ↔ ∀ ip port flow scope, e = .v6 ip port flow scope → flow = 0 ∧ scope = 0 := by
  cases e with
  | v4 ip port => simp [bare, ofIp, Endpoint.ip, Endpoint.port]
  | v6 ip port flow scope =>
    simp only [bare, ofIp, Endpoint.ip, Endpoint.port, v6.injEq, true_and]
    constructor
    · rintro ⟨rfl, rfl⟩ _ _ _ _ ⟨_, _, rfl, rfl⟩
      exact ⟨rfl, rfl⟩
    · intro h
      obtain ⟨hflow, hscope⟩ := h ip port flow scope ⟨rfl, rfl, rfl, rfl⟩
      exact ⟨hflow.symm, hscope.symm⟩

end Endpoint

namespace Stun

theorem addressOfValue?_addressValue (e : Endpoint) :
    addressOfValue? (addressValue e) = some e.bare := by
  cases e with
  | v4 ip port =>
    simp only [addressValue, Bytes.ofWord16, List.cons_append, List.nil_append, addressOfValue?,
      if_true, Bytes.word16_ofWord16]
    rw [List.take_of_length_le ip.length_octets.le, Ipv4.ofOctets?_octets]
    rfl
  | v6 ip port flow scope =>
    have hne : familyIpv6 ≠ familyIpv4 := by decide
    simp only [addressValue, Bytes.ofWord16, List.cons_append, List.nil_append, addressOfValue?,
      if_neg hne, if_true, Bytes.word16_ofWord16]
    rw [List.take_of_length_le ip.length_octets.le, Ipv6.ofOctets?_octets]
    rfl

theorem zipWith_xor_cancel (ws ks : List UInt16) (h : ws.length = ks.length) :
    List.zipWith (· ^^^ ·) (List.zipWith (· ^^^ ·) ws ks) ks = ws := by
  induction ws generalizing ks with
  | nil => rfl
  | cons w ws ih =>
    cases ks with
    | nil => simp at h
    | cons k ks =>
      rw [List.zipWith_cons_cons, List.zipWith_cons_cons, ih ks (Nat.succ.inj h), UInt16.xor_assoc,
        UInt16.xor_self, UInt16.xor_zero]

theorem length_joinPairs (bytes : Bytes) : (Ipv6.joinPairs bytes).length = bytes.length / 2 := by
  fun_induction Ipv6.joinPairs bytes with
  | case1 a b bytes ih => simp only [List.length_cons, ih]; omega
  | case2 bytes hshort =>
    match bytes with
    | [] => rfl
    | [_] => simp
    | a :: b :: bytes => exact absurd rfl (hshort a b bytes)

theorem length_joinPairs_maskBytes (id : TransactionId) :
    (Ipv6.joinPairs (maskBytes id)).length = 8 := by
  rw [length_joinPairs, maskBytes, List.length_append, Bytes.length_ofWord32, id.length_bytes]

theorem bare_mask (id : TransactionId) (e : Endpoint) : (mask id e).bare = mask id e := by
  cases e <;> rfl

theorem mask_mask (id : TransactionId) (e : Endpoint) : mask id (mask id e) = e.bare := by
  cases e with
  | v4 ip port =>
    simp only [mask, Endpoint.bare, Endpoint.ofIp, Endpoint.ip, Endpoint.port, UInt8.xor_assoc,
      UInt8.xor_self, UInt8.xor_zero, UInt16.xor_assoc, UInt16.xor_self, UInt16.xor_zero]
  | v6 ip port flow scope =>
    have hgroups := zipWith_xor_cancel ip.groups (Ipv6.joinPairs (maskBytes id))
      (by rw [ip.length_groups, length_joinPairs_maskBytes])
    simp only [mask, Endpoint.bare, Endpoint.ofIp, Endpoint.ip, Endpoint.port, hgroups,
      UInt16.xor_assoc, UInt16.xor_self, UInt16.xor_zero]

theorem word32OfValue?_ofWord32 (w : UInt32) : word32OfValue? (Bytes.ofWord32 w) = some w := by
  rw [Bytes.ofWord32, word32OfValue?, Bytes.word32_ofWord32]

theorem word32OfValue?_eq_some_iff {value : Bytes} {w : UInt32} :
    word32OfValue? value = some w ↔ value = Bytes.ofWord32 w := by
  constructor
  · intro h
    unfold word32OfValue? at h
    split at h
    · rw [← Option.some.inj h, Bytes.ofWord32_word32]
    · cases h
  · rintro rfl
    exact word32OfValue?_ofWord32 w

theorem ofWord32_injective : Function.Injective Bytes.ofWord32 := by
  intro x y h
  have hread := word32OfValue?_ofWord32 x
  rw [h, word32OfValue?_ofWord32] at hread
  exact (Option.some.inj hread).symm

namespace AttributeType

/-- The types whose values are read. -/
def interpreted : List UInt16 :=
  [mappedAddress, changeRequest, changedAddress, errorCode, xorMappedAddress,
    xorMappedAddressDraft, software, fingerprint, otherAddress]

def addresses : List UInt16 :=
  [mappedAddress, changedAddress, xorMappedAddress, xorMappedAddressDraft, otherAddress]

def words : List UInt16 := [changeRequest, fingerprint]

end AttributeType

namespace Attribute

def address? : Attribute → Option Endpoint
  | .mappedAddress e | .changedAddress e | .xorMappedAddress e | .otherAddress e => some e
  | _ => none

/-- An attribute that its type and value determine. -/
def Carried : Attribute → Prop
  | .mappedAddress e | .changedAddress e | .xorMappedAddress e | .otherAddress e => e.bare = e
  | .errorCode code _ => code.toNat ≤ 799
  | .unknown type _ => type ∉ AttributeType.interpreted
  | _ => True

theorem carried_iff {item : Attribute} :
    item.Carried ↔
      (∀ code reason, item = .errorCode code reason → code.toNat ≤ 799) ∧
      (∀ type data, item = .unknown type data → type ∉ AttributeType.interpreted) ∧
      ∀ ip port flow scope, item.address? = some (.v6 ip port flow scope) →
        flow = 0 ∧ scope = 0 := by
  cases item <;> simp [Carried, address?, Endpoint.bare_eq_self_iff]

theorem ofValue?_of_not_mem {id : TransactionId} {type : UInt16} {value : Bytes}
    (h : type ∉ AttributeType.interpreted) :
    ofValue? id type value = some (.unknown type value) := by
  simp only [AttributeType.interpreted, List.mem_cons, List.not_mem_nil, or_false, not_or] at h
  obtain ⟨h1, h2, h3, h4, h5, h6, h7, h8, h9⟩ := h
  simp only [ofValue?, h1, h2, h3, h4, h5, h6, h7, h8, h9, if_false, or_self]

theorem ofValue?_errorCode (id : TransactionId) (value : Bytes) :
    ofValue? id AttributeType.errorCode value = errorCodeOfValue? value := rfl

theorem ofValue?_software (id : TransactionId) (value : Bytes) :
    ofValue? id AttributeType.software value = some (.software (Utf8.decodeLenient value)) := rfl

/-- The code that is read for a written one. -/
def rereadCode (code : UInt16) : UInt16 :=
  (code.toNat / 100 % 8 * 100 + code.toNat % 100).toUInt16

theorem rereadCode_eq_self_iff {code : UInt16} : rereadCode code = code ↔ code.toNat ≤ 799 := by
  rw [← UInt16.toNat_inj, rereadCode, Nat.toUInt16, UInt16.toNat_ofNat',
    Nat.mod_eq_of_lt (by omega)]
  omega

/-- The attribute that is read for a written one. -/
def reread : Attribute → Attribute
  | .mappedAddress e => .mappedAddress e.bare
  | .changedAddress e => .changedAddress e.bare
  | .xorMappedAddress e => .xorMappedAddress e.bare
  | .otherAddress e => .otherAddress e.bare
  | .errorCode code reason => .errorCode (rereadCode code) reason
  | item => item

theorem errorCodeOfValue?_value (id : TransactionId) (code : UInt16) (reason : String) :
    errorCodeOfValue? (value id (.errorCode code reason)) =
      some (.errorCode (rereadCode code) reason) := by
  have hhundreds : (code.toNat / 100 % 8).toUInt8.toNat = code.toNat / 100 % 8 := by
    rw [Nat.toUInt8, UInt8.toNat_ofNat', Nat.mod_eq_of_lt (by omega)]
  have hnumber : (code.toNat % 100).toUInt8.toNat = code.toNat % 100 := by
    rw [Nat.toUInt8, UInt8.toNat_ofNat', Nat.mod_eq_of_lt (by omega)]
  simp only [value, List.cons_append, List.nil_append, errorCodeOfValue?, hhundreds, hnumber,
    Nat.mod_mod, Utf8.decodeLenient_encode]
  rfl

theorem ofValue?_changeRequest (id : TransactionId) (ip port : Bool) :
    ofValue? id AttributeType.changeRequest (Bytes.ofWord32 (changeFlags ip port)) =
      some (.changeRequest ip port) := by
  cases ip <;> cases port <;> rfl

theorem ofValue?_value {id : TransactionId} {item : Attribute}
    (h : ∀ type data, item = .unknown type data → type ∉ AttributeType.interpreted) :
    ofValue? id item.type (item.value id) = some item.reread := by
  cases item with
  | mappedAddress e => exact congrArg (Option.map _) (addressOfValue?_addressValue e)
  | changedAddress e => exact congrArg (Option.map _) (addressOfValue?_addressValue e)
  | otherAddress e => exact congrArg (Option.map _) (addressOfValue?_addressValue e)
  | xorMappedAddress e =>
    have hread := addressOfValue?_addressValue (mask id e)
    refine (congrArg (Option.map _) hread).trans ?_
    rw [Option.map_some, bare_mask, mask_mask]
    rfl
  | changeRequest ip port => exact ofValue?_changeRequest id ip port
  | errorCode code reason => exact errorCodeOfValue?_value id code reason
  | software name =>
    refine (ofValue?_software id _).trans ?_
    rw [value, Utf8.decodeLenient_encode]
    rfl
  | fingerprint checksum => exact congrArg (Option.map _) (word32OfValue?_ofWord32 checksum)
  | unknown type data => exact ofValue?_of_not_mem (h type data rfl)

theorem errorCodeOfValue?_eq_some {value : Bytes} {item : Attribute}
    (h : errorCodeOfValue? value = some item) : ∃ code reason, item = .errorCode code reason := by
  unfold errorCodeOfValue? at h
  split at h
  · exact ⟨_, _, (Option.some.inj h).symm⟩
  · cases h

/-- A type with a meaning of its own yields an attribute of that type, never a raw one. The two
codes of the masked address yield the same attribute. -/
theorem type_of_ofValue? {id : TransactionId} {type : UInt16} {value : Bytes} {item : Attribute}
    (hmem : type ∈ AttributeType.interpreted) (h : ofValue? id type value = some item) :
    (item.type = type ∨ type = AttributeType.xorMappedAddressDraft ∧
      item.type = AttributeType.xorMappedAddress) ∧
    ∀ rawType data, item ≠ .unknown rawType data := by
  simp only [AttributeType.interpreted, List.mem_cons, List.not_mem_nil, or_false] at hmem
  rcases hmem with rfl | rfl | rfl | rfl | rfl | rfl | rfl | rfl | rfl
  case inr.inr.inr.inl =>
    obtain ⟨code, reason, rfl⟩ := errorCodeOfValue?_eq_some h
    exact ⟨.inl rfl, fun _ _ => Attribute.noConfusion⟩
  case inr.inr.inr.inr.inr.inr.inl =>
    rw [ofValue?_software, Option.some.injEq] at h
    subst h
    exact ⟨.inl rfl, fun _ _ => Attribute.noConfusion⟩
  case inr.inr.inr.inr.inr.inl =>
    obtain ⟨_, _, rfl⟩ := Option.map_eq_some_iff.mp h
    exact ⟨.inr ⟨rfl, rfl⟩, fun _ _ => Attribute.noConfusion⟩
  all_goals
    obtain ⟨_, _, rfl⟩ := Option.map_eq_some_iff.mp h
    exact ⟨.inl rfl, fun _ _ => Attribute.noConfusion⟩

/-- The type of a record is that of its attribute, except under the draft code. -/
theorem eq_type_of_ofValue? {id : TransactionId} {type : UInt16} {value : Bytes} {item : Attribute}
    (h : ofValue? id type value = some item) (hmask : item.type ≠ AttributeType.xorMappedAddress) :
    type = item.type := by
  by_cases hmem : type ∈ AttributeType.interpreted
  · rcases (type_of_ofValue? hmem h).1 with htype | ⟨_, htype⟩
    · exact htype.symm
    · exact absurd htype hmask
  · rw [ofValue?_of_not_mem hmem] at h
    rw [← Option.some.inj h]
    rfl

theorem type_not_mem_of_ofValue? {id : TransactionId} {type rawType : UInt16} {value data : Bytes}
    (h : ofValue? id type value = some (.unknown rawType data)) :
    rawType ∉ AttributeType.interpreted := by
  by_cases hmem : type ∈ AttributeType.interpreted
  · exact absurd rfl ((type_of_ofValue? hmem h).2 rawType data)
  · rw [ofValue?_of_not_mem hmem] at h
    cases h
    exact hmem

theorem carried_iff_reread {item : Attribute} :
    item.Carried ↔
      (∀ type data, item = .unknown type data → type ∉ AttributeType.interpreted) ∧
        item.reread = item := by
  cases item <;> simp [Carried, reread, rereadCode_eq_self_iff]

theorem ofValue?_value_eq_some_iff {id : TransactionId} {item : Attribute} :
    ofValue? id item.type (item.value id) = some item ↔ item.Carried := by
  rw [carried_iff_reread]
  constructor
  · intro h
    have hraw : ∀ type data, item = .unknown type data → type ∉ AttributeType.interpreted := by
      rintro type data rfl
      exact type_not_mem_of_ofValue? h
    rw [ofValue?_value hraw] at h
    exact ⟨hraw, Option.some.inj h⟩
  · rintro ⟨hraw, hsame⟩
    rw [ofValue?_value hraw, hsame]

end Attribute

/-! ### Which values are read -/

theorem exists_eq_of_four_le {bytes : Bytes} (h : 4 ≤ bytes.length) :
    ∃ a b c d rest, bytes = a :: b :: c :: d :: rest := by
  rcases bytes with _ | ⟨a, _ | ⟨b, _ | ⟨c, _ | ⟨d, rest⟩⟩⟩⟩
  case cons.cons.cons.cons => exact ⟨a, b, c, d, rest, rfl⟩
  all_goals
    simp only [List.length_cons, List.length_nil] at h
    omega

theorem isSome_ofOctets?_v4 {bytes : Bytes} :
    (Ipv4.ofOctets? bytes).isSome ↔ bytes.length = 4 := by
  unfold Ipv4.ofOctets?
  split
  · simp
  · rename_i hne
    simp only [Option.isSome_none, Bool.false_eq_true, false_iff]
    intro hlength
    match bytes, hlength with
    | [a, b, c, d], _ => exact hne a b c d rfl

theorem isSome_ofOctets?_v6 {bytes : Bytes} :
    (Ipv6.ofOctets? bytes).isSome ↔ bytes.length = 16 := by
  unfold Ipv6.ofOctets? Ipv6.ofGroups?
  split
  · rename_i hlength
    rw [dif_pos (by rw [length_joinPairs, hlength])]
    simp [hlength]
  · rename_i hlength
    simp [hlength]

/-- An address value names its family in the second byte and is long enough for it. -/
def AddressForm (value : Bytes) : Prop :=
  value[1]? = some familyIpv4 ∧ 8 ≤ value.length ∨ value[1]? = some familyIpv6 ∧ 20 ≤ value.length

theorem isSome_addressOfValue? {value : Bytes} :
    (addressOfValue? value).isSome ↔ AddressForm value := by
  have hne : familyIpv6 ≠ familyIpv4 := by decide
  unfold addressOfValue? AddressForm
  split
  · rename_i a family p q rest
    simp only [List.getElem?_cons_succ, List.getElem?_cons_zero, Option.some.injEq,
      List.length_cons]
    split
    · rename_i hfamily
      rw [Option.isSome_map, isSome_ofOctets?_v4, List.length_take, hfamily]
      simp only [hne.symm, true_and, false_and, or_false]
      omega
    split
    · rename_i hfamily
      rw [Option.isSome_map, isSome_ofOctets?_v6, List.length_take, hfamily]
      simp only [hne, true_and, false_and, false_or]
      omega
    · rename_i h4 h6
      simp [h4, h6]
  · rename_i hshort
    have hlength : value.length < 4 := by
      by_contra hlength
      obtain ⟨a, b, p, q, rest, rfl⟩ := exists_eq_of_four_le (Nat.le_of_not_lt hlength)
      exact hshort a b p q rest rfl
    simp only [Option.isSome_none, Bool.false_eq_true, false_iff]
    omega

/-- The form that the values of a type must have. Types without a meaning of their own take
any value. -/
def WellFormed (type : UInt16) (value : Bytes) : Prop :=
  (type ∈ AttributeType.addresses → AddressForm value) ∧
  (type ∈ AttributeType.words → value.length = 4) ∧
  (type = AttributeType.errorCode → 4 ≤ value.length)

theorem isSome_word32OfValue? {value : Bytes} :
    (word32OfValue? value).isSome ↔ value.length = 4 := by
  unfold word32OfValue?
  split
  · simp
  · rename_i hne
    simp only [Option.isSome_none, Bool.false_eq_true, false_iff]
    intro hlength
    match value, hlength with
    | [a, b, c, d], _ => exact hne a b c d rfl

theorem isSome_errorCodeOfValue? {value : Bytes} :
    (errorCodeOfValue? value).isSome ↔ 4 ≤ value.length := by
  unfold errorCodeOfValue?
  split
  · simp
  · rename_i hne
    simp only [Option.isSome_none, Bool.false_eq_true, false_iff]
    intro hlength
    obtain ⟨a, b, c, d, rest, rfl⟩ := exists_eq_of_four_le hlength
    exact hne a b c d rest rfl

theorem isSome_ofValue?_of_mem_addresses {id : TransactionId} {type : UInt16} {value : Bytes}
    (hmem : type ∈ AttributeType.addresses) :
    (Attribute.ofValue? id type value).isSome ↔ AddressForm value := by
  rw [← isSome_addressOfValue?]
  simp only [AttributeType.addresses, List.mem_cons, List.not_mem_nil, or_false] at hmem
  rcases hmem with rfl | rfl | rfl | rfl | rfl <;>
    exact iff_of_eq (congrArg (· = true) Option.isSome_map)

theorem isSome_ofValue?_of_mem_words {id : TransactionId} {type : UInt16} {value : Bytes}
    (hmem : type ∈ AttributeType.words) :
    (Attribute.ofValue? id type value).isSome ↔ value.length = 4 := by
  rw [← isSome_word32OfValue?]
  simp only [AttributeType.words, List.mem_cons, List.not_mem_nil, or_false] at hmem
  rcases hmem with rfl | rfl <;> exact iff_of_eq (congrArg (· = true) Option.isSome_map)

theorem not_mem_words_of_mem_addresses {type : UInt16} (hmem : type ∈ AttributeType.addresses) :
    type ∉ AttributeType.words ∧ type ≠ AttributeType.errorCode := by
  simp only [AttributeType.addresses, List.mem_cons, List.not_mem_nil, or_false] at hmem
  rcases hmem with rfl | rfl | rfl | rfl | rfl <;> decide

theorem ne_errorCode_of_mem_words {type : UInt16} (hmem : type ∈ AttributeType.words) :
    type ≠ AttributeType.errorCode := by
  simp only [AttributeType.words, List.mem_cons, List.not_mem_nil, or_false] at hmem
  rcases hmem with rfl | rfl <;> decide

/-- A value is read exactly when it has the form of its type. -/
theorem isSome_ofValue?_iff {id : TransactionId} {type : UInt16} {value : Bytes} :
    (Attribute.ofValue? id type value).isSome ↔ WellFormed type value := by
  unfold WellFormed
  by_cases haddress : type ∈ AttributeType.addresses
  · obtain ⟨hword, hcode⟩ := not_mem_words_of_mem_addresses haddress
    simp only [isSome_ofValue?_of_mem_addresses haddress, haddress, hword, hcode, forall_const,
      false_imp_iff, and_true]
  by_cases hword : type ∈ AttributeType.words
  · have hcode := ne_errorCode_of_mem_words hword
    simp only [isSome_ofValue?_of_mem_words hword, haddress, hword, hcode, forall_const,
      false_imp_iff, true_and, and_true]
  by_cases hcode : type = AttributeType.errorCode
  · subst hcode
    simp only [Attribute.ofValue?_errorCode, isSome_errorCodeOfValue?, haddress, hword,
      forall_const, false_imp_iff, true_and]
  simp only [haddress, hword, hcode, false_imp_iff, and_self, iff_true]
  by_cases hsoftware : type = AttributeType.software
  · rw [hsoftware, Attribute.ofValue?_software, Option.isSome_some]
  · rw [Attribute.ofValue?_of_not_mem, Option.isSome_some]
    simp only [AttributeType.addresses, AttributeType.words, AttributeType.interpreted,
      List.mem_cons, List.not_mem_nil, or_false, not_or] at haddress hword ⊢
    obtain ⟨h1, h2, h3, h4, h5⟩ := haddress
    exact ⟨h1, hword.1, h2, hcode, h3, h4, hsoftware, hword.2, h5⟩

instance (value : Bytes) : Decidable (AddressForm value) :=
  inferInstanceAs (Decidable (_ ∨ _))

instance (type : UInt16) (value : Bytes) : Decidable (WellFormed type value) :=
  inferInstanceAs (Decidable (_ ∧ _))

end Stun

end NatBehavior
