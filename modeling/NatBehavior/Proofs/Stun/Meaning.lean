import Mathlib.Data.Nat.Bitwise
import NatBehavior.Proofs.Stun.Values

/-! What a value says, told by the bytes alone: a relation with one case for each type, and the
reader as its function. A masked address is the address that the bytes tell after they were unmasked
one by one, so unmasking words and unmasking bytes have to agree. -/
namespace NatBehavior

namespace Bytes

theorem toNat_word16 (a b : UInt8) : (word16 a b).toNat = a.toNat * 256 + b.toNat := by
  have ha := a.toNat_lt
  have hb := b.toNat_lt
  simp only [word16, Nat.toUInt16, UInt16.toNat_ofNat']
  omega

theorem word16_xor (a b k l : UInt8) :
    word16 (a ^^^ k) (b ^^^ l) = word16 a b ^^^ word16 k l := by
  have hb := b.toNat_lt
  have hl := l.toNat_lt
  let n := (word16 a b).toNat ^^^ (word16 k l).toNat
  have hhigh : n / 2 ^ 8 = a.toNat ^^^ k.toNat := by
    have ha : (word16 a b).toNat / 2 ^ 8 = a.toNat := by rw [toNat_word16]; omega
    have hk : (word16 k l).toNat / 2 ^ 8 = k.toNat := by rw [toNat_word16]; omega
    rw [Nat.xor_div_two_pow, ha, hk]
  have hlow : n % 2 ^ 8 = b.toNat ^^^ l.toNat := by
    have hb : (word16 a b).toNat % 2 ^ 8 = b.toNat := by rw [toNat_word16]; omega
    have hl : (word16 k l).toNat % 2 ^ 8 = l.toNat := by rw [toNat_word16]; omega
    rw [Nat.xor_mod_two_pow, hb, hl]
  apply UInt16.toNat.inj
  rw [toNat_word16, UInt8.toNat_xor, UInt8.toNat_xor, UInt16.toNat_xor, ← hhigh, ← hlow]
  exact Nat.div_add_mod' n (2 ^ 8)

end Bytes

namespace Stun

/-! ### The relation -/

/-- The endpoint of a value: a byte that is not looked at, the family, the port and the address, the
higher byte first. What stands behind the address is not looked at. -/
inductive TellsEndpoint : Bytes → Endpoint → Prop
  | v4 (skipped p q : UInt8) (ip : Ipv4) (rest : Bytes) :
    TellsEndpoint (skipped :: 0x01 :: p :: q :: (ip.octets ++ rest)) (.v4 ip (Bytes.word16 p q))
  | v6 (skipped p q : UInt8) (ip : Ipv6) (rest : Bytes) :
    TellsEndpoint (skipped :: 0x02 :: p :: q :: (ip.octets ++ rest))
      (.v6 ip (Bytes.word16 p q) 0 0)

/-- A masked value without its mask: the port is masked with the first half of the cookie, the
address with the cookie and the transaction. -/
def unmasked (id : TransactionId) (value : Bytes) : Bytes :=
  value.take 2 ++
    List.zipWith (· ^^^ ·) (value.drop 2) (0x21 :: 0x12 :: 0x21 :: 0x12 :: 0xA4 :: 0x42 :: id.bytes)

/-- What attribute a type and a value of a message tell. -/
inductive Tells (id : TransactionId) : UInt16 → Bytes → Attribute → Prop
  | mappedAddress {value : Bytes} {e : Endpoint} (h : TellsEndpoint value e) :
    Tells id 0x0001 value (.mappedAddress e)
  | changeRequest (a b c d : UInt8) : Tells id 0x0003 [a, b, c, d]
      (.changeRequest (Bytes.word32 a b c d &&& 4 ≠ 0) (Bytes.word32 a b c d &&& 2 ≠ 0))
  | changedAddress {value : Bytes} {e : Endpoint} (h : TellsEndpoint value e) :
    Tells id 0x0005 value (.changedAddress e)
  | errorCode (a b hundreds number : UInt8) (reason : Bytes) :
    Tells id 0x0009 (a :: b :: hundreds :: number :: reason)
      (.errorCode (hundreds.toNat % 8 * 100 + number.toNat).toUInt16 (Utf8.decodeLenient reason))
  | xorMappedAddress {type : UInt16} {value : Bytes} {e : Endpoint}
      (htype : type = 0x0020 ∨ type = 0x8020) (h : TellsEndpoint (unmasked id value) e) :
    Tells id type value (.xorMappedAddress e)
  | software (value : Bytes) : Tells id 0x8022 value (.software (Utf8.decodeLenient value))
  | fingerprint (a b c d : UInt8) :
    Tells id 0x8028 [a, b, c, d] (.fingerprint (Bytes.word32 a b c d))
  | otherAddress {value : Bytes} {e : Endpoint} (h : TellsEndpoint value e) :
    Tells id 0x802C value (.otherAddress e)
  | unknown {type : UInt16} {value : Bytes}
      (h : type ∉ ([0x0001, 0x0003, 0x0005, 0x0009, 0x0020, 0x8020, 0x8022, 0x8028, 0x802C] :
        List UInt16)) :
    Tells id type value (.unknown type value)

/-! ### Addresses -/

theorem ofOctets?_take_eq_some_iff_v4 {bytes : Bytes} {ip : Ipv4} :
    Ipv4.ofOctets? (bytes.take 4) = some ip ↔ ∃ rest, bytes = ip.octets ++ rest := by
  constructor
  · intro h
    unfold Ipv4.ofOctets? at h
    split at h
    · rename_i a b c d htake
      obtain rfl := Option.some.inj h
      exact ⟨bytes.drop 4, by rw [← List.take_append_drop 4 bytes, htake]; simp [Ipv4.octets]⟩
    · cases h
  · rintro ⟨rest, rfl⟩
    exact Ipv4.ofOctets?_octets ip

theorem flatMap_ofWord16_joinPairs {bytes : Bytes} (h : bytes.length % 2 = 0) :
    (Ipv6.joinPairs bytes).flatMap Bytes.ofWord16 = bytes := by
  fun_induction Ipv6.joinPairs bytes with
  | case1 a b bytes ih =>
    have heven : bytes.length % 2 = 0 := by
      simp only [List.length_cons] at h
      omega
    rw [List.flatMap_cons, Bytes.ofWord16_word16, ih heven]
    rfl
  | case2 bytes hshort =>
    rcases bytes with _ | ⟨a, _ | ⟨b, bytes⟩⟩
    · rfl
    · cases h
    · exact absurd rfl (hshort a b bytes)

theorem ofOctets?_take_eq_some_iff_v6 {bytes : Bytes} {ip : Ipv6} :
    Ipv6.ofOctets? (bytes.take 16) = some ip ↔ ∃ rest, bytes = ip.octets ++ rest := by
  constructor
  · intro h
    unfold Ipv6.ofOctets? Ipv6.ofGroups? at h
    split at h
    · rename_i hlength
      split at h
      · obtain rfl := Option.some.inj h
        refine ⟨bytes.drop 16, ?_⟩
        rw [Ipv6.octets, flatMap_ofWord16_joinPairs (by rw [hlength]), List.take_append_drop]
      · cases h
    · cases h
  · rintro ⟨rest, rfl⟩
    rw [List.take_left' ip.length_octets, Ipv6.ofOctets?_octets]

theorem addressOfValue?_eq_some_iff {value : Bytes} {e : Endpoint} :
    addressOfValue? value = some e ↔ TellsEndpoint value e := by
  constructor
  · intro h
    unfold addressOfValue? at h
    split at h
    · rename_i skipped family p q rest
      dsimp only at h
      split_ifs at h with h4 h6
      · obtain ⟨ip, hip, rfl⟩ := Option.map_eq_some_iff.mp h
        obtain ⟨rest, rfl⟩ := ofOctets?_take_eq_some_iff_v4.mp hip
        rw [h4]
        exact .v4 skipped p q ip rest
      · obtain ⟨ip, hip, rfl⟩ := Option.map_eq_some_iff.mp h
        obtain ⟨rest, rfl⟩ := ofOctets?_take_eq_some_iff_v6.mp hip
        rw [h6]
        exact .v6 skipped p q ip rest
    · cases h
  · intro h
    cases h with
    | v4 skipped p q ip rest =>
      have hip : Ipv4.ofOctets? ((ip.octets ++ rest).take 4) = some ip :=
        ofOctets?_take_eq_some_iff_v4.mpr ⟨rest, rfl⟩
      rw [addressOfValue?, if_pos (show 0x01 = familyIpv4 from rfl), hip]
      rfl
    | v6 skipped p q ip rest =>
      have hip : Ipv6.ofOctets? ((ip.octets ++ rest).take 16) = some ip :=
        ofOctets?_take_eq_some_iff_v6.mpr ⟨rest, rfl⟩
      rw [addressOfValue?, if_neg (show 0x02 ≠ familyIpv4 by decide),
        if_pos (show 0x02 = familyIpv6 from rfl), hip]
      rfl

theorem joinPairs_zipWith_xor (bytes key : Bytes) :
    Ipv6.joinPairs (List.zipWith (· ^^^ ·) bytes key) =
      List.zipWith (· ^^^ ·) (Ipv6.joinPairs bytes) (Ipv6.joinPairs key) := by
  fun_induction Ipv6.joinPairs bytes generalizing key with
  | case1 a b bytes ih =>
    rcases key with _ | ⟨k, _ | ⟨l, key⟩⟩
    · rfl
    · rfl
    · simp only [List.zipWith_cons_cons, Ipv6.joinPairs, Bytes.word16_xor, ih]
  | case2 bytes hshort =>
    rcases bytes with _ | ⟨a, _ | ⟨b, bytes⟩⟩
    · rfl
    · cases key <;> rfl
    · exact absurd rfl (hshort a b bytes)

theorem ofOctets?_unmasked_v4 (id : TransactionId) (port : UInt16) {bytes : Bytes}
    (h : bytes.length ≤ 4) :
    (Ipv4.ofOctets? (List.zipWith (· ^^^ ·) bytes [0x21, 0x12, 0xA4, 0x42])).map
        (.v4 · (port ^^^ 0x2112)) =
      (Ipv4.ofOctets? bytes).map fun ip => mask id (.v4 ip port) := by
  rcases bytes with _ | ⟨a, _ | ⟨b, _ | ⟨c, _ | ⟨d, _ | ⟨e, bytes⟩⟩⟩⟩⟩
  case cons.cons.cons.cons.cons =>
    simp only [List.length_cons] at h
    omega
  all_goals rfl

theorem ofOctets?_unmasked_v6 (id : TransactionId) (port : UInt16) {bytes : Bytes}
    (h : bytes.length ≤ 16) :
    (Ipv6.ofOctets? (List.zipWith (· ^^^ ·) bytes (maskBytes id))).map
        (.v6 · (port ^^^ 0x2112) 0 0) =
      (Ipv6.ofOctets? bytes).map fun ip => mask id (.v6 ip port 0 0) := by
  have hkey : (maskBytes id).length = 16 := by
    rw [maskBytes, List.length_append, Bytes.length_ofWord32, id.length_bytes]
  have hlength : (List.zipWith (· ^^^ ·) bytes (maskBytes id)).length = bytes.length := by
    rw [List.length_zipWith, hkey]
    exact Nat.min_eq_left h
  unfold Ipv6.ofOctets? Ipv6.ofGroups?
  rw [hlength]
  by_cases hfull : bytes.length = 16
  · have hgroups : (Ipv6.joinPairs bytes).length = 8 := by rw [length_joinPairs, hfull]
    have hmasked : (List.zipWith (· ^^^ ·) (Ipv6.joinPairs bytes)
        (Ipv6.joinPairs (maskBytes id))).length = 8 := by
      rw [List.length_zipWith, hgroups, length_joinPairs_maskBytes]
      rfl
    simp only [if_pos hfull, joinPairs_zipWith_xor, dif_pos hgroups, dif_pos hmasked]
    rfl
  · rw [if_neg hfull, if_neg hfull]
    rfl

theorem unmasked_cons (id : TransactionId) (skipped family p q : UInt8) (rest : Bytes) :
    unmasked id (skipped :: family :: p :: q :: rest) =
      skipped :: family :: (p ^^^ 0x21) :: (q ^^^ 0x12) ::
        List.zipWith (· ^^^ ·) rest (maskBytes id) := rfl

theorem addressOfValue?_unmasked (id : TransactionId) (value : Bytes) :
    addressOfValue? (unmasked id value) = (addressOfValue? value).map (mask id) := by
  by_cases hlong : 4 ≤ value.length
  · obtain ⟨skipped, family, p, q, rest, rfl⟩ := exists_eq_of_four_le hlong
    have hport : Bytes.word16 (p ^^^ 0x21) (q ^^^ 0x12) = Bytes.word16 p q ^^^ 0x2112 :=
      Bytes.word16_xor p q 0x21 0x12
    have h16 : (maskBytes id).take 16 = maskBytes id := by
      refine List.take_of_length_le ?_
      rw [maskBytes, List.length_append, Bytes.length_ofWord32, id.length_bytes]
    rw [unmasked_cons]
    unfold addressOfValue?
    dsimp only
    rw [hport]
    split_ifs
    · rw [List.take_zipWith, Option.map_map]
      exact ofOctets?_unmasked_v4 id _ (List.length_take_le 4 rest)
    · rw [List.take_zipWith, h16, Option.map_map]
      exact ofOctets?_unmasked_v6 id _ (List.length_take_le 16 rest)
    · rfl
  · rcases value with _ | ⟨a, _ | ⟨b, _ | ⟨c, _ | ⟨d, rest⟩⟩⟩⟩
    case cons.cons.cons.cons => exact absurd (by simp) hlong
    all_goals rfl

/-! ### Values -/

/-- A masked address is what the unmasked bytes tell. -/
theorem map_mask_eq_some_iff {id : TransactionId} {value : Bytes} {item : Attribute} :
    ((addressOfValue? value).map fun e => .xorMappedAddress (mask id e)) = some item ↔
      ∃ e, TellsEndpoint (unmasked id value) e ∧ item = .xorMappedAddress e := by
  simp only [← addressOfValue?_eq_some_iff, addressOfValue?_unmasked, Option.map_eq_some_iff]
  constructor
  · rintro ⟨e, he, rfl⟩
    exact ⟨mask id e, ⟨e, he, rfl⟩, rfl⟩
  · rintro ⟨_, ⟨e, he, rfl⟩, rfl⟩
    exact ⟨e, he, rfl⟩

theorem Tells.of_ofValue? {id : TransactionId} {type : UInt16} {value : Bytes} {item : Attribute}
    (h : Attribute.ofValue? id type value = some item) : Tells id type value item := by
  unfold Attribute.ofValue? at h
  split_ifs at h with hmapped hchanged hother hmasked hchange hcode hsoftware hprint
  · obtain ⟨e, he, rfl⟩ := Option.map_eq_some_iff.mp h
    rw [hmapped]
    exact .mappedAddress (addressOfValue?_eq_some_iff.mp he)
  · obtain ⟨e, he, rfl⟩ := Option.map_eq_some_iff.mp h
    rw [hchanged]
    exact .changedAddress (addressOfValue?_eq_some_iff.mp he)
  · obtain ⟨e, he, rfl⟩ := Option.map_eq_some_iff.mp h
    rw [hother]
    exact .otherAddress (addressOfValue?_eq_some_iff.mp he)
  · obtain ⟨e, he, rfl⟩ := map_mask_eq_some_iff.mp h
    exact .xorMappedAddress hmasked he
  · obtain ⟨flags, hflags, rfl⟩ := Option.map_eq_some_iff.mp h
    unfold word32OfValue? at hflags
    split at hflags
    · rename_i a b c d
      obtain rfl := Option.some.inj hflags
      rw [hchange]
      exact .changeRequest a b c d
    · cases hflags
  · unfold errorCodeOfValue? at h
    split at h
    · rename_i a b hundreds number reason
      obtain rfl := Option.some.inj h
      rw [hcode]
      exact .errorCode a b hundreds number reason
    · cases h
  · obtain rfl := Option.some.inj h
    rw [hsoftware]
    exact .software value
  · obtain ⟨checksum, hchecksum, rfl⟩ := Option.map_eq_some_iff.mp h
    unfold word32OfValue? at hchecksum
    split at hchecksum
    · rename_i a b c d
      obtain rfl := Option.some.inj hchecksum
      rw [hprint]
      exact .fingerprint a b c d
    · cases hchecksum
  · obtain rfl := Option.some.inj h
    rw [not_or] at hmasked
    refine .unknown ?_
    simp only [List.mem_cons, List.not_mem_nil, or_false, not_or]
    exact ⟨hmapped, hchange, hchanged, hcode, hmasked.1, hmasked.2, hsoftware, hprint, hother⟩

/-- A value is read as what it tells, so it tells one attribute at the most. -/
theorem ofValue?_eq_some_iff {id : TransactionId} {type : UInt16} {value : Bytes}
    {item : Attribute} :
    Attribute.ofValue? id type value = some item ↔ Tells id type value item := by
  refine ⟨.of_ofValue?, fun h => ?_⟩
  cases h with
  | mappedAddress he | changedAddress he | otherAddress he =>
    exact congrArg (Option.map _) (addressOfValue?_eq_some_iff.mpr he)
  | xorMappedAddress htype he =>
    rcases htype with rfl | rfl
    · exact map_mask_eq_some_iff.mpr ⟨_, he, rfl⟩
    · exact map_mask_eq_some_iff.mpr ⟨_, he, rfl⟩
  | changeRequest | errorCode | software | fingerprint => rfl
  | unknown hraw => exact Attribute.ofValue?_of_not_mem hraw

end Stun

end NatBehavior
