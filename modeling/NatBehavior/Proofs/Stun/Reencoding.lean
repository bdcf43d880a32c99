import Mathlib.Algebra.Order.BigOperators.Group.List
import NatBehavior.Proofs.Stun.Fingerprint

/-! What a reader returns, written again. A value that was read never takes more than three times
the bytes it was read from, and of everything a reader returns only an error code whose number
went past ninety-nine is written as another one. -/
namespace NatBehavior.Stun

/-- What the values of all types are read as. -/
inductive ReadFrom (id : TransactionId) (value : Bytes) : Attribute → Prop
  | mapped {e : Endpoint} (h : addressOfValue? value = some e) :
    ReadFrom id value (.mappedAddress e)
  | changed {e : Endpoint} (h : addressOfValue? value = some e) :
    ReadFrom id value (.changedAddress e)
  | other {e : Endpoint} (h : addressOfValue? value = some e) :
    ReadFrom id value (.otherAddress e)
  | masked {e : Endpoint} (h : addressOfValue? value = some e) :
    ReadFrom id value (.xorMappedAddress (mask id e))
  | change {ip port : Bool} (h : value.length = 4) : ReadFrom id value (.changeRequest ip port)
  | error {code : UInt16} {reason : String}
    (h : errorCodeOfValue? value = some (.errorCode code reason)) :
    ReadFrom id value (.errorCode code reason)
  | text : ReadFrom id value (.software (Utf8.decodeLenient value))
  | checksum {w : UInt32} (h : value.length = 4) : ReadFrom id value (.fingerprint w)
  | raw {type : UInt16} (htype : type ∉ AttributeType.interpreted) :
    ReadFrom id value (.unknown type value)

theorem length_of_word32OfValue? {value : Bytes} {w : UInt32} (h : word32OfValue? value = some w) :
    value.length = 4 :=
  isSome_word32OfValue?.mp (h ▸ rfl)

theorem readFrom_of_ofValue? {id : TransactionId} {type : UInt16} {value : Bytes}
    {item : Attribute} (h : Attribute.ofValue? id type value = some item) :
    ReadFrom id value item := by
  by_cases hmem : type ∈ AttributeType.interpreted
  · simp only [AttributeType.interpreted, List.mem_cons, List.not_mem_nil, or_false] at hmem
    rcases hmem with rfl | rfl | rfl | rfl | rfl | rfl | rfl | rfl | rfl
    · obtain ⟨e, he, rfl⟩ := Option.map_eq_some_iff.mp h
      exact .mapped he
    · obtain ⟨w, hw, rfl⟩ := Option.map_eq_some_iff.mp h
      exact .change (length_of_word32OfValue? hw)
    · obtain ⟨e, he, rfl⟩ := Option.map_eq_some_iff.mp h
      exact .changed he
    · obtain ⟨code, reason, rfl⟩ := Attribute.errorCodeOfValue?_eq_some h
      exact .error h
    · obtain ⟨e, he, rfl⟩ := Option.map_eq_some_iff.mp h
      exact .masked he
    · obtain ⟨e, he, rfl⟩ := Option.map_eq_some_iff.mp h
      exact .masked he
    · rw [Attribute.ofValue?_software] at h
      obtain rfl := Option.some.inj h
      exact .text
    · obtain ⟨w, hw, rfl⟩ := Option.map_eq_some_iff.mp h
      exact .checksum (length_of_word32OfValue? hw)
    · obtain ⟨e, he, rfl⟩ := Option.map_eq_some_iff.mp h
      exact .other he
  · rw [Attribute.ofValue?_of_not_mem hmem] at h
    obtain rfl := Option.some.inj h
    exact .raw hmem

/-! ### Sizes -/

theorem length_addressValue_le_of_addressOfValue? {value : Bytes} {e : Endpoint}
    (h : addressOfValue? value = some e) : (addressValue e).length ≤ value.length := by
  unfold addressOfValue? at h
  split at h
  · rename_i a family p q rest
    dsimp only at h
    split at h
    · obtain ⟨ip, hip, rfl⟩ := Option.map_eq_some_iff.mp h
      have htake := isSome_ofOctets?_v4.mp (Option.isSome_of_eq_some hip)
      rw [List.length_take] at htake
      simp only [addressValue, List.length_append, List.length_cons, List.length_nil,
        Bytes.length_ofWord16, Ipv4.length_octets]
      omega
    split at h
    · obtain ⟨ip, hip, rfl⟩ := Option.map_eq_some_iff.mp h
      have htake := isSome_ofOctets?_v6.mp (Option.isSome_of_eq_some hip)
      rw [List.length_take] at htake
      simp only [addressValue, List.length_append, List.length_cons, List.length_nil,
        Bytes.length_ofWord16, Ipv6.length_octets]
      omega
    · cases h
  · cases h

theorem bare_of_addressOfValue? {value : Bytes} {e : Endpoint}
    (h : addressOfValue? value = some e) : e.bare = e := by
  unfold addressOfValue? at h
  split at h
  · dsimp only at h
    split at h
    · obtain ⟨ip, -, rfl⟩ := Option.map_eq_some_iff.mp h
      rfl
    split at h
    · obtain ⟨ip, -, rfl⟩ := Option.map_eq_some_iff.mp h
      rfl
    · cases h
  · cases h

namespace ReadFrom

variable {id : TransactionId} {value : Bytes} {item : Attribute}

/-- Only texts grow, and a text at most to three times its length. -/
theorem length_value_le (h : ReadFrom id value item) :
    (item.value id).length ≤ 3 * value.length := by
  cases h with
  | mapped h | changed h | other h =>
    have haddress := length_addressValue_le_of_addressOfValue? h
    rw [Attribute.value]
    omega
  | masked h =>
    have haddress := length_addressValue_le_of_addressOfValue? h
    rw [Attribute.value, mask_mask, bare_of_addressOfValue? h]
    omega
  | change h | checksum h =>
    rw [Attribute.value, Bytes.length_ofWord32]
    omega
  | error h =>
    obtain ⟨hfour, rfl⟩ := errorCodeOfValue?_eq_some_errorCode h
    have htext := Utf8.length_encode_decodeLenient_le (value.drop 4)
    rw [List.length_drop] at htext
    rw [Attribute.value, List.length_append]
    simp only [List.length_cons, List.length_nil]
    omega
  | text => exact Utf8.length_encode_decodeLenient_le value
  | raw =>
    rw [Attribute.value]
    omega

theorem size_le (h : ReadFrom id value item) : item.size id ≤ 3 * (4 + value.length) := by
  have hvalue := h.length_value_le
  unfold Attribute.size
  omega

/-- Whatever is read is determined by what is written for it, but for the codes of errors. -/
theorem carried_iff (h : ReadFrom id value item) :
    item.Carried ↔ ∀ code reason, item = .errorCode code reason → code.toNat ≤ 799 := by
  cases h with
  | mapped h | changed h | other h => simpa [Attribute.Carried] using bare_of_addressOfValue? h
  | masked => simpa [Attribute.Carried] using bare_mask id _
  | change | text | checksum => simp [Attribute.Carried]
  | error => simp [Attribute.Carried]
  | raw htype => simpa [Attribute.Carried] using htype

end ReadFrom

/-- The records of a body are apart from each other, so what is read of all of them does not take
more than three times the body. -/
theorem sum_size_le_of_decodeAttributes {id : TransactionId} {register : UInt32} {body : Bytes}
    {items : List Attribute} (h : decodeAttributes id register body = .ok items) :
    (items.map (Attribute.size id)).sum ≤ 3 * body.length := by
  fun_induction decodeAttributes id register body generalizing items with
  | case1 => cases h
  | case2 register t u l m rest length value hfits record next hread =>
    rename_i ih
    have hrest := ih h
    rw [List.length_drop] at hrest
    simp only [List.length_cons]
    omega
  | case3 register t u l m rest length value hfits record next item hread hverify =>
    rename_i ih
    cases hothers : decodeAttributes id next (rest.drop record) with
    | error e =>
      rw [hothers] at h
      cases h
    | ok others =>
      rw [hothers] at h ih
      obtain rfl := Except.ok.inj h
      have hitem := (readFrom_of_ofValue? hread).size_le
      have hrest := ih rfl
      -- the others are read behind the padding of this one, which may be missing
      have hvalue : value.length ≤ rest.length ∧ value.length ≤ record := by
        rw [List.length_take]
        omega
      rw [List.length_drop] at hrest
      rw [List.map_cons, List.sum_cons]
      simp only [List.length_cons]
      omega
  | case4 => cases h
  | case5 =>
    obtain rfl := Except.ok.inj h
    exact Nat.zero_le _

/-! ### Whole messages -/

namespace Message

theorem readFrom_of_mem {bytes : Bytes} {m : Message} (h : decode bytes = .ok m) {item : Attribute}
    (hmem : item ∈ m.attributes) : ∃ value, ReadFrom m.transaction value item := by
  obtain ⟨_, _, _, _, _, value, _, _, hread⟩ :=
    exists_record_of_mem (spells_of_decode h).attributes hmem
  exact ⟨value, readFrom_of_ofValue? hread⟩

theorem length_body_le_of_decode {bytes : Bytes} {m : Message} (h : decode bytes = .ok m) :
    m.body.length ≤ 3 * declaredLength bytes := by
  have hsum := sum_size_le_of_decodeAttributes (spells_of_decode h).attributes
  have hlength : (bodyOf bytes).length ≤ declaredLength bytes := List.length_take_le _ _
  rw [length_body]
  omega

theorem attributes_bare_sublist (m : Message) : m.bare.attributes.Sublist m.attributes :=
  List.filter_sublist

theorem length_body_bare_le (m : Message) : m.bare.body.length ≤ m.body.length := by
  rw [length_body, length_body]
  exact ((attributes_bare_sublist m).map _).sum_le_sum fun _ _ => Nat.zero_le _

theorem sealed_of_forall_isFingerprint {id : TransactionId} {items : List Attribute}
    (h : ∀ item ∈ items, item.isFingerprint = false) (register : UInt32) :
    Sealed id register items := by
  rw [sealed_iff]
  rintro before value after rfl
  cases h (.fingerprint value) (by simp)

/-- A message that was read is written again without its fingerprints. Its body grows to three
times the length at most. Where that still fits the length field, what is written is read as the
same message exactly when no error code was read that cannot be written. -/
theorem decode_encode_bare_of_decode {bytes : Bytes} {m : Message} (hread : decode bytes = .ok m) :
    m.bare.body.length ≤ 3 * declaredLength bytes ∧
    (declaredLength bytes ≤ 21845 →
      (decode m.bare.encode = .ok m.bare ↔
        ∀ code reason, .errorCode code reason ∈ m.bare.attributes → code.toNat ≤ 799)) := by
  have hlength : m.bare.body.length ≤ 3 * declaredLength bytes :=
    (length_body_bare_le m).trans (length_body_le_of_decode hread)
  refine ⟨hlength, fun hshort => ?_⟩
  have hsize : (m.bare.attributes.map (Attribute.size m.bare.transaction)).sum ≤ 65535 := by
    rw [← length_body]
    omega
  have hcarried : ∀ item ∈ m.bare.attributes,
      (item.Carried ↔ ∀ code reason, item = .errorCode code reason → code.toNat ≤ 799) := by
    intro item hmem
    obtain ⟨value, hvalue⟩ := readFrom_of_mem hread ((attributes_bare_sublist m).subset hmem)
    exact hvalue.carried_iff
  have hsealed : ∀ register, Sealed m.bare.transaction register m.bare.attributes :=
    sealed_of_forall_isFingerprint fun item hmem => by simpa using (List.mem_filter.mp hmem).2
  rw [decode_encode_eq_ok_iff, transmissible_iff]
  constructor
  · rintro ⟨-, hall, -⟩ code reason hmem
    exact (hcarried _ hmem).mp (hall _ hmem) code reason rfl
  · intro hcodes
    refine ⟨hsize, fun item hmem => (hcarried item hmem).mpr ?_, hsealed _⟩
    rintro code reason rfl
    exact hcodes code reason hmem

/-- Three malformed bytes become nine, and the code 900, of which the last record tells the seven
hundreds and the two hundred behind them, is written as 100. -/
theorem decode_encode_bare_of_decode_malformed :
    let bytes : Bytes := [0x01, 0x11, 0, 17, 0x21, 0x12, 0xA4, 0x42] ++ List.replicate 12 0 ++
      [0x80, 0x22, 0, 3, 0xFF, 0xC0, 0x80, 0] ++ [0, 9, 0, 5, 0, 0, 7, 200, 0x4E]
    let m : Message := ⟨.error, .zero, [.software "\uFFFD\uFFFD\uFFFD", .errorCode 900 "N"]⟩
    decode bytes = .ok m ∧ declaredLength bytes ≤ 21845 ∧
    m.bare.body.length ≤ 3 * declaredLength bytes ∧ decode m.bare.encode ≠ .ok m.bare := by
  intro bytes m
  have hread : decode bytes = .ok m := by decide +kernel
  have hshort : declaredLength bytes ≤ 21845 := by decide
  obtain ⟨hlength, hiff⟩ := decode_encode_bare_of_decode hread
  refine ⟨hread, hshort, hlength, fun hsame => ?_⟩
  have hcode := (hiff hshort).mp hsame 900 "N" (by decide)
  revert hcode
  decide

end Message

end NatBehavior.Stun
