import Mathlib.Algebra.Order.BigOperators.Group.List
import NatBehavior.Proofs.Stun.RoundTrip

/-! Fingerprinted messages. The checksum is taken over a header that already counts the
fingerprint, so it is that of the bytes which come to stand in front of it, and a reader that
runs the same checksum accepts the message. -/
namespace NatBehavior.Stun

namespace Attribute

/-- A value of another type, or of another length, is not read as a fingerprint. -/
theorem verifies_of_ofValue? {id : TransactionId} {type : UInt16} {value : Bytes}
    {read : Attribute} (hplain : type = AttributeType.fingerprint → value.length ≠ 4)
    (h : ofValue? id type value = some read) (register : UInt32) :
    read.verifies register = true := by
  cases read with
  | fingerprint w =>
    obtain rfl : type = AttributeType.fingerprint :=
      eq_type_of_ofValue? h
        (by decide : AttributeType.fingerprint ≠ AttributeType.xorMappedAddress)
    obtain ⟨word, hword, -⟩ := Option.map_eq_some_iff.mp h
    have hfour : value.length = 4 := isSome_word32OfValue?.mp (hword ▸ rfl)
    exact absurd hfour (hplain rfl)
  | _ => rfl

/-- An attribute whose record has its whole length and is not read as a fingerprint. -/
structure Plain (id : TransactionId) (item : Attribute) : Prop where
  short : (item.value id).length < 65536
  not_fingerprint : item.isFingerprint = false
  not_raw : ∀ data, item = .unknown AttributeType.fingerprint data → data.length ≠ 4

theorem Plain.length_value_ne_four {id : TransactionId} {item : Attribute} (h : item.Plain id)
    (htype : item.type = AttributeType.fingerprint) : (item.value id).length ≠ 4 := by
  cases item with
  | fingerprint w => cases h.not_fingerprint
  | unknown type data =>
    obtain rfl : type = AttributeType.fingerprint := htype
    exact h.not_raw data rfl
  | _ => cases htype

end Attribute

/-- What is read of attributes that are written one after another. -/
def readings (id : TransactionId) (items : List Attribute) : List Attribute :=
  items.filterMap fun item => Attribute.ofValue? id item.type (item.value id)

theorem readings_eq_self {id : TransactionId} {items : List Attribute}
    (h : ∀ item ∈ items, item.Carried) : readings id items = items := by
  rw [readings, List.filterMap_congr fun item hmem =>
    Attribute.ofValue?_value_eq_some_iff.mpr (h item hmem), List.filterMap_some]

/-- Records in front that no reader takes for fingerprints leave to those behind them whether the
message is accepted. -/
theorem decodeAttributes_flatMap_encode_append {id : TransactionId} {items : List Attribute}
    (hplain : ∀ item ∈ items, item.Plain id) (register : UInt32) (rest : Bytes) :
    decodeAttributes id register (items.flatMap (Attribute.encode id) ++ rest) =
      (decodeAttributes id
        (Checksum.feed register (items.flatMap (Attribute.encode id))) rest).map
          (readings id items ++ ·) := by
  induction items generalizing register with
  | nil =>
    rw [List.flatMap_nil, List.nil_append, Checksum.feed_nil]
    cases decodeAttributes id register rest <;> rfl
  | cons item items ih =>
    rw [List.forall_mem_cons] at hplain
    have hrest := ih hplain.2 (Checksum.feed register (item.encode id))
    rw [List.flatMap_cons, List.append_assoc,
      decodeAttributes_encode_append id register hplain.1.short, hrest, Checksum.feed_append]
    unfold readings
    rw [List.filterMap_cons]
    cases hread : Attribute.ofValue? id item.type (item.value id) with
    | none => rfl
    | some read =>
      have hverify : read.verifies register = true :=
        Attribute.verifies_of_ofValue? hplain.1.length_value_ne_four hread register
      rw [accept, if_pos hverify]
      cases decodeAttributes id
        (Checksum.feed (Checksum.feed register (item.encode id))
          (items.flatMap (Attribute.encode id))) rest <;> rfl

theorem decodeAttributes_encode_fingerprint {id : TransactionId} {register value : UInt32}
    (hvalue : Checksum.finish register ^^^ fingerprintMask = value) :
    decodeAttributes id register (Attribute.encode id (.fingerprint value)) =
      .ok [.fingerprint value] := by
  have hshort : ((Attribute.fingerprint value).value id).length < 65536 := by
    rw [Attribute.value, Bytes.length_ofWord32]
    decide
  have hread : Attribute.ofValue? id (Attribute.fingerprint value).type
      ((Attribute.fingerprint value).value id) = some (.fingerprint value) :=
    Attribute.ofValue?_value (fun _ _ h => by cases h)
  have hverify : (Attribute.fingerprint value).verifies register = true := decide_eq_true hvalue
  rw [← List.append_nil (Attribute.encode id _), decodeAttributes_encode_append id register hshort,
    hread, accept, if_pos hverify, decodeAttributes_of_length_lt (by decide)]
  rfl

namespace Message

/-- The message without its fingerprints. -/
def bare (m : Message) : Message :=
  { m with attributes := m.attributes.filter (!·.isFingerprint) }

/-- The value of the fingerprint that closes a message: the checksum of what stands in front,
under a header that counts eight bytes more. -/
def stamp (m : Message) : UInt32 :=
  Checksum.crc32 (header m.messageClass (m.bare.body.length + 8) m.transaction ++ m.bare.body)
    ^^^ fingerprintMask

theorem addFingerprint_eq (m : Message) : m.addFingerprint = m.bare.add (.fingerprint m.stamp) :=
  rfl

@[simp] theorem messageClass_addFingerprint (m : Message) :
    m.addFingerprint.messageClass = m.messageClass := rfl

@[simp] theorem transaction_addFingerprint (m : Message) :
    m.addFingerprint.transaction = m.transaction := rfl

theorem bare_addFingerprint (m : Message) : m.addFingerprint.bare = m.bare := by
  have hfilter : m.addFingerprint.attributes.filter (!·.isFingerprint) = m.bare.attributes := by
    rw [addFingerprint_eq, add, List.filter_append, bare, List.filter_filter]
    simp [Attribute.isFingerprint]
  exact congrArg (Message.mk m.messageClass m.transaction) hfilter

theorem addFingerprint_addFingerprint (m : Message) :
    m.addFingerprint.addFingerprint = m.addFingerprint := by
  have hstamp : m.addFingerprint.stamp = m.stamp := by
    rw [stamp, bare_addFingerprint]
    rfl
  rw [addFingerprint_eq m.addFingerprint, bare_addFingerprint, hstamp, addFingerprint_eq]

theorem length_encode_fingerprint (id : TransactionId) (value : UInt32) :
    (Attribute.encode id (.fingerprint value)).length = 8 := by
  rw [Attribute.length_encode, Attribute.size, Attribute.value, Bytes.length_ofWord32]

theorem body_addFingerprint (m : Message) :
    m.addFingerprint.body =
      m.bare.body ++ Attribute.encode m.transaction (.fingerprint m.stamp) := by
  rw [addFingerprint_eq, add, body, List.flatMap_append, List.flatMap_singleton]
  rfl

/-- What the checksum is taken over is what stands in front of the fingerprint on the wire. -/
theorem encode_addFingerprint (m : Message) :
    m.addFingerprint.encode =
      header m.messageClass (m.bare.body.length + 8) m.transaction ++ m.bare.body ++
        Attribute.encode m.transaction (.fingerprint m.stamp) := by
  rw [encode, body_addFingerprint, List.length_append, length_encode_fingerprint,
    ← List.append_assoc]
  rfl

theorem length_value_lt_of_mem {m : Message} {item : Attribute} (hmem : item ∈ m.attributes)
    (hsize : m.body.length ≤ 65535) : (item.value m.transaction).length < 65536 := by
  have hitem : item.size m.transaction ≤ m.body.length := by
    rw [length_body]
    exact List.le_sum_of_mem (List.mem_map_of_mem hmem)
  unfold Attribute.size at hitem
  omega

theorem plain_of_mem_bare {m : Message} (hsize : m.bare.body.length ≤ 65535)
    (hraw : ∀ data, .unknown AttributeType.fingerprint data ∈ m.bare.attributes →
      data.length ≠ 4) : ∀ item ∈ m.bare.attributes, item.Plain m.transaction := by
  intro item hmem
  refine ⟨length_value_lt_of_mem (m := m.bare) hmem hsize, ?_, ?_⟩
  · simpa using (List.mem_filter.mp hmem).2
  · rintro data rfl
    exact hraw data hmem

/-- A fingerprinted message is accepted. What is read is what would be read of its attributes one
by one, and the fingerprint behind them. -/
theorem decode_encode_addFingerprint {m : Message}
    (hsize : m.addFingerprint.body.length ≤ 65535)
    (hraw : ∀ data, .unknown AttributeType.fingerprint data ∈ m.attributes → data.length ≠ 4) :
    decode m.addFingerprint.encode =
      .ok ⟨m.messageClass, m.transaction,
        readings m.transaction m.bare.attributes ++ [.fingerprint m.stamp]⟩ := by
  have hlength : m.addFingerprint.body.length = m.bare.body.length + 8 := by
    rw [body_addFingerprint, List.length_append, length_encode_fingerprint]
  have hplain : ∀ item ∈ m.bare.attributes, item.Plain m.transaction :=
    plain_of_mem_bare (by omega) fun data hmem => hraw data (List.mem_filter.mp hmem).1
  let register := Checksum.feed Checksum.preset
    (header m.messageClass m.addFingerprint.body.length m.transaction)
  have hstamp : Checksum.finish (Checksum.feed register m.bare.body) ^^^ fingerprintMask =
      m.stamp := by
    rw [← Checksum.feed_append, hlength]
    rfl
  have hread : decodeAttributes m.transaction register m.addFingerprint.body =
      .ok (readings m.transaction m.bare.attributes ++ [.fingerprint m.stamp]) := by
    rw [body_addFingerprint]
    refine (decodeAttributes_flatMap_encode_append hplain register _).trans ?_
    exact congrArg (Except.map _) (decodeAttributes_encode_fingerprint hstamp)
  rw [decode_encode, Nat.mod_eq_of_lt (Nat.lt_succ_of_le hsize), List.take_length,
    messageClass_addFingerprint, transaction_addFingerprint, hread]
  rfl

/-- A fingerprinted message is read back as it was written exactly where its body fits the length
field and its other attributes are carried. -/
theorem decode_encode_addFingerprint_eq_ok_iff (m : Message) :
    decode m.addFingerprint.encode = .ok m.addFingerprint ↔
      m.addFingerprint.body.length ≤ 65535 ∧ ∀ item ∈ m.bare.attributes, item.Carried := by
  constructor
  · intro h
    have hfour :=
      Attribute.sum_size_mod_four m.addFingerprint.transaction m.addFingerprint.attributes
    rw [← length_body] at hfour
    rw [decode_encode, map_mk_eq_ok_iff] at h
    obtain ⟨hsize, hcarried, -⟩ :=
      (decodeAttributes_take_eq_ok_iff (by omega) (by omega)).mp h
    rw [← length_body] at hsize
    exact ⟨by omega, fun item hmem => hcarried item (List.mem_append_left _ hmem)⟩
  · rintro ⟨hsize, hcarried⟩
    have hraw : ∀ data, .unknown AttributeType.fingerprint data ∈ m.attributes →
        data.length ≠ 4 := by
      intro data hmem
      have hbare : .unknown AttributeType.fingerprint data ∈ m.bare.attributes :=
        List.mem_filter.mpr ⟨hmem, rfl⟩
      exact absurd (by decide) (hcarried _ hbare)
    rw [decode_encode_addFingerprint hsize hraw, readings_eq_self hcarried]
    rfl

/-- Fingerprinting replaces whatever fingerprints there are by one that closes the message, once
and for all. Its value stands for the bytes in front of it on the wire, so readers accept the
message wherever its length and its raw data let them find the fingerprint. -/
theorem addFingerprint_verifies (m : Message) :
    m.addFingerprint.messageClass = m.messageClass ∧
    m.addFingerprint.transaction = m.transaction ∧
    m.addFingerprint.addFingerprint = m.addFingerprint ∧
    ∃ value,
      m.addFingerprint.attributes =
        m.attributes.filter (!·.isFingerprint) ++ [.fingerprint value] ∧
      value = Checksum.crc32 (m.addFingerprint.encode.take (m.addFingerprint.encode.length - 8)) ^^^
        fingerprintMask ∧
      (m.addFingerprint.body.length ≤ 65535 →
        (∀ data, .unknown AttributeType.fingerprint data ∈ m.attributes → data.length ≠ 4) →
          ∃ read, decode m.addFingerprint.encode = .ok read ∧
            read.attributes.getLast? = some (.fingerprint value)) := by
  refine ⟨rfl, rfl, addFingerprint_addFingerprint m, m.stamp, rfl, ?_, ?_⟩
  · have htake : m.addFingerprint.encode.take (m.addFingerprint.encode.length - 8) =
        header m.messageClass (m.bare.body.length + 8) m.transaction ++ m.bare.body := by
      rw [encode_addFingerprint, List.length_append, length_encode_fingerprint, Nat.add_sub_cancel,
        List.take_left]
    rw [htake, stamp]
  · intro hsize hraw
    exact ⟨_, decode_encode_addFingerprint hsize hraw, List.getLast?_concat⟩

/-- A response with two stale fingerprints, one of them in front of everything else, and raw data
of the fingerprint's type that is too long for one. -/
theorem addFingerprint_verifies_stale :
    let m : Message := ⟨.success, .zero, [.fingerprint 7, .xorMappedAddress (.v4 .unspecified 5),
      .unknown AttributeType.fingerprint [1, 2, 3, 4, 5], .fingerprint 0,
      .changeRequest true false]⟩
    m.addFingerprint.body.length ≤ 65535 ∧
    (∀ data, .unknown AttributeType.fingerprint data ∈ m.attributes → data.length ≠ 4) ∧
    ∃ value read, decode m.addFingerprint.encode = .ok read ∧
      read.attributes.getLast? = some (.fingerprint value) := by
  intro m
  have hsize : m.addFingerprint.body.length ≤ 65535 := by decide
  have hraw : ∀ data, .unknown AttributeType.fingerprint data ∈ m.attributes →
      data.length ≠ 4 := by
    simp [m]
  obtain ⟨-, -, -, value, -, -, hread⟩ := addFingerprint_verifies m
  obtain ⟨read, hdecode, hlast⟩ := hread hsize hraw
  exact ⟨hsize, hraw, value, read, hdecode, hlast⟩

end Message

end NatBehavior.Stun
