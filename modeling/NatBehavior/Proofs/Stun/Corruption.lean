import NatBehavior.Proofs.Checksum
import NatBehavior.Proofs.Stun.Fingerprint

/-! Fingerprinted messages that were damaged on their way. A change within a value or within the
transaction moves no record, so the reader still finds the fingerprint at the end, and a change of
up to four bytes in a row makes it differ from the checksum of what stands in front. -/
namespace NatBehavior.Stun

/-! ### Records that are no fingerprints -/

/-- Whole records one after another, none of which is read as a fingerprint. -/
inductive Unsealed : Bytes → Prop
  | nil : Unsealed []
  | record {t u l m : UInt8} {value pad rest : Bytes}
      (hvalue : value.length = (Bytes.word16 l m).toNat)
      (hpad : pad.length = padding value.length)
      (hplain : Bytes.word16 t u = AttributeType.fingerprint → value.length ≠ 4)
      (hrest : Unsealed rest) : Unsealed (t :: u :: l :: m :: (value ++ pad ++ rest))

theorem Unsealed.append {front back : Bytes} (hfront : Unsealed front) (hback : Unsealed back) :
    Unsealed (front ++ back) := by
  induction hfront with
  | nil => exact hback
  | record hvalue hpad hplain _ ih =>
    rw [List.cons_append, List.cons_append, List.cons_append, List.cons_append, List.append_assoc]
    exact .record hvalue hpad hplain ih

/-- What is wrong behind such records is found, whatever they hold. -/
theorem Unsealed.decodeAttributes_append {front rest : Bytes} (hfront : Unsealed front)
    {id : TransactionId} {register : UInt32} {e : StunError}
    (h : decodeAttributes id (Checksum.feed register front) rest = .error e) :
    decodeAttributes id register (front ++ rest) = .error e := by
  induction hfront generalizing register with
  | nil => exact h
  | @record t u l m value pad others hvalue hpad hplain _ ih =>
    have hjoin : t :: u :: l :: m :: (value ++ pad ++ others) =
        (t :: u :: l :: m :: (value ++ pad)) ++ others := rfl
    rw [hjoin, Checksum.feed_append] at h
    rw [hjoin, List.append_assoc]
    refine (decodeAttributes_record hvalue (.inl hpad)).trans ?_
    rw [ih h]
    cases hread : Attribute.ofValue? id (Bytes.word16 t u) value with
    | none => rfl
    | some read =>
      rw [accept, if_pos (Attribute.verifies_of_ofValue? hplain hread register)]
      rfl

/-- The record of a plain attribute stays unsealed when other bytes take the place of its value and
padding. -/
theorem unsealed_encode {id : TransactionId} {item : Attribute} (hplain : item.Plain id) :
    ∃ front, front.length = 4 ∧
      item.encode id =
        front ++ (item.value id ++ List.replicate (padding (item.value id).length) 0) ∧
      ∀ bytes : Bytes, bytes.length = (item.value id).length + padding (item.value id).length →
        Unsealed (front ++ bytes) := by
  obtain ⟨t, u, l, m, htype, hlength, hencode⟩ := Attribute.encode_eq_cons id item
  rw [Nat.mod_eq_of_lt hplain.short] at hlength
  refine ⟨[t, u, l, m], rfl, hencode, ?_⟩
  intro bytes hbytes
  have hvalue : (bytes.take (item.value id).length).length = (item.value id).length := by
    rw [List.length_take]
    omega
  have hpad : (bytes.drop (item.value id).length).length =
      padding (bytes.take (item.value id).length).length := by
    rw [hvalue, List.length_drop]
    omega
  have hrecord : Unsealed (t :: u :: l :: m ::
      (bytes.take (item.value id).length ++ bytes.drop (item.value id).length ++ [])) := by
    refine .record (hvalue.trans hlength.symm) hpad (fun hsame => ?_) .nil
    rw [hvalue]
    exact hplain.length_value_ne_four (htype.symm.trans hsame)
  rwa [List.append_nil, List.take_append_drop] at hrecord

theorem unsealed_flatMap_encode {id : TransactionId} {items : List Attribute}
    (hplain : ∀ item ∈ items, item.Plain id) : Unsealed (items.flatMap (·.encode id)) := by
  induction items with
  | nil => exact .nil
  | cons item items ih =>
    rw [List.forall_mem_cons] at hplain
    obtain ⟨front, -, hencode, hrecord⟩ := unsealed_encode hplain.1
    rw [List.flatMap_cons, hencode]
    refine (hrecord _ ?_).append (ih hplain.2)
    rw [List.length_append, List.length_replicate]

/-! ### A fingerprint that does not match -/

/-- What stands in front of the value of a fingerprint. -/
def fingerprintFront : Bytes := Bytes.ofWord16 AttributeType.fingerprint ++ Bytes.ofWord16 4

theorem encode_fingerprint (id : TransactionId) (value : UInt32) :
    Attribute.encode id (.fingerprint value) = fingerprintFront ++ Bytes.ofWord32 value := by
  rw [Attribute.encode, Attribute.value, Bytes.length_ofWord32]
  exact List.append_nil _

theorem decodeAttributes_forged {id : TransactionId} {register : UInt32} {word : Bytes}
    (hlength : word.length = 4)
    (hne : word ≠ Bytes.ofWord32 (Checksum.finish register ^^^ fingerprintMask)) :
    decodeAttributes id register (fingerprintFront ++ word) = .error .fingerprintMismatch := by
  obtain ⟨w, hsome⟩ := Option.isSome_iff_exists.mp (isSome_word32OfValue?.mpr hlength)
  have hword : word = Bytes.ofWord32 w := word32OfValue?_eq_some_iff.mp hsome
  have hread : Attribute.ofValue? id AttributeType.fingerprint word = some (.fingerprint w) :=
    congrArg (Option.map Attribute.fingerprint) hsome
  have hverify : ¬ (Attribute.fingerprint w).verifies register = true := by
    intro hsame
    exact hne (hword.trans (congrArg Bytes.ofWord32 (of_decide_eq_true hsame).symm))
  have hpad : ([] : Bytes).length = padding word.length := by
    rw [hlength]
    rfl
  have hrecord : decodeAttributes id register (0x80 :: 0x28 :: 0 :: 4 :: (word ++ [] ++ [])) =
      accept register (Attribute.ofValue? id AttributeType.fingerprint word)
        (decodeAttributes id
          (Checksum.feed register (0x80 :: 0x28 :: 0 :: 4 :: (word ++ []))) []) :=
    decodeAttributes_record hlength (.inl hpad)
  rw [List.append_nil, List.append_nil, hread, accept, if_neg hverify] at hrecord
  exact hrecord

namespace Message

/-- A closing fingerprint is found behind whatever unsealed records stand in front of it. -/
theorem decode_forged {c : MessageClass} {length : Nat} {id : TransactionId} {body word : Bytes}
    (hfits : length ≤ 65535) (hlength : body.length + 8 = length) (hbody : Unsealed body)
    (hword : word.length = 4)
    (hne : word ≠
      Bytes.ofWord32 (Checksum.crc32 (header c length id ++ body) ^^^ fingerprintMask)) :
    decode (header c length id ++ body ++ (fingerprintFront ++ word)) =
      .error .fingerprintMismatch := by
  have hrest : (body ++ (fingerprintFront ++ word)).length = length := by
    rw [List.length_append, List.length_append, hword]
    exact hlength
  have hmod : length % 65536 = length := Nat.mod_eq_of_lt (Nat.lt_succ_of_le hfits)
  have hforged : decodeAttributes id
      (Checksum.feed (Checksum.feed Checksum.preset (header c length id)) body)
      (fingerprintFront ++ word) = .error .fingerprintMismatch :=
    decodeAttributes_forged hword (by rwa [← Checksum.feed_append])
  rw [List.append_assoc, decode_header (hmod.trans_le hrest.ge), hmod,
    List.take_of_length_le hrest.le, hbody.decodeAttributes_append hforged]
  rfl

/-! ### Damage -/

/-- What stands in front of the transaction. -/
def headerFront (c : MessageClass) (length : Nat) : Bytes :=
  Bytes.ofWord16 c.typeWord ++ Bytes.ofWord16 length.toUInt16 ++ Bytes.ofWord32 magicCookie

/-- Whether a range of the written message lies within the transaction, or within the value and
padding of one attribute. -/
def Encloses (m : Message) (start length : Nat) : Prop :=
  (8 ≤ start ∧ start + length ≤ 20) ∨
  ∃ before item after, m.attributes = before ++ item :: after ∧
    20 + (before.flatMap (·.encode m.transaction)).length + 4 ≤ start ∧
    start + length ≤ 20 + (before.flatMap (·.encode m.transaction)).length +
      (item.encode m.transaction).length

section

variable {m : Message} {start : Nat} {part : Bytes} (hsize : m.bare.body.length + 8 ≤ 65535)
  (hshort : part.length ≤ 4)
  (hchange : m.addFingerprint.encode.patch start part ≠ m.addFingerprint.encode)

/-- No other string that differs in a burst has the fingerprint of the message. -/
theorem ofWord32_stamp_ne {new : Bytes}
    (hburst : Checksum.Burst
      (header m.messageClass (m.bare.body.length + 8) m.transaction ++ m.bare.body) new) :
    Bytes.ofWord32 m.stamp ≠ Bytes.ofWord32 (Checksum.crc32 new ^^^ fingerprintMask) := by
  intro h
  exact hburst.crc32_ne ((UInt32.xor_left_inj _).mp (ofWord32_injective h)).symm

include hsize hshort hchange

theorem decode_patch_transaction (hbody : Unsealed m.bare.body) (hlow : 8 ≤ start)
    (hhigh : start + part.length ≤ 20) :
    decode (m.addFingerprint.encode.patch start part) = .error .fingerprintMismatch := by
  have hsplit : m.addFingerprint.encode =
      headerFront m.messageClass (m.bare.body.length + 8) ++ m.transaction.bytes ++
        (m.bare.body ++ (fingerprintFront ++ Bytes.ofWord32 m.stamp)) := by
    rw [encode_addFingerprint, encode_fingerprint, List.append_assoc]
    rfl
  rw [hsplit] at hchange ⊢
  obtain ⟨new, hburst, hpatch⟩ := Checksum.Burst.of_patch hlow
    (hhigh.trans_eq (congrArg (8 + ·) m.transaction.length_bytes.symm)) hshort hchange
  obtain ⟨id, rfl⟩ : ∃ id : TransactionId, id.bytes = new :=
    ⟨⟨new, hburst.length_eq.trans m.transaction.length_bytes⟩, rfl⟩
  have hcovered := hburst.within
    (headerFront m.messageClass (m.bare.body.length + 8)) m.bare.body
  rw [hpatch, ← List.append_assoc]
  exact decode_forged hsize rfl hbody (Bytes.length_ofWord32 _) (ofWord32_stamp_ne hcovered)

theorem decode_patch_value {front value back : Bytes}
    (hbody : m.bare.body = front ++ value ++ back)
    (hrecords : ∀ new : Bytes, new.length = value.length → Unsealed (front ++ new ++ back))
    (hlow : 20 + front.length ≤ start)
    (hhigh : start + part.length ≤ 20 + front.length + value.length) :
    decode (m.addFingerprint.encode.patch start part) = .error .fingerprintMismatch := by
  let head := header m.messageClass (m.bare.body.length + 8) m.transaction
  have hhead : (head ++ front).length = 20 + front.length := by
    rw [List.length_append, length_header]
  have hcovers : head ++ m.bare.body = head ++ front ++ value ++ back := by
    simp only [hbody, List.append_assoc]
  have hsplit : m.addFingerprint.encode = head ++ front ++ value ++
      (back ++ (fingerprintFront ++ Bytes.ofWord32 m.stamp)) := by
    rw [encode_addFingerprint, encode_fingerprint, ← List.append_assoc _ back, ← hcovers]
  rw [hsplit] at hchange ⊢
  obtain ⟨new, hburst, hpatch⟩ := Checksum.Burst.of_patch (hhead.trans_le hlow)
    (hhigh.trans_eq (congrArg (· + value.length) hhead.symm)) hshort hchange
  have hcovered := hburst.within (head ++ front) back
  rw [← hcovers] at hcovered
  have hlength : (front ++ new ++ back).length = m.bare.body.length := by
    simp only [hbody, List.length_append, hburst.length_eq]
  have hjoin : head ++ front ++ new ++ back = head ++ (front ++ new ++ back) := by
    simp only [List.append_assoc]
  rw [hjoin] at hcovered
  rw [hpatch, ← List.append_assoc, hjoin]
  exact decode_forged hsize (congrArg (· + 8) hlength) (hrecords new hburst.length_eq)
    (Bytes.length_ofWord32 _) (ofWord32_stamp_ne hcovered)

theorem decode_patch_item (hplain : ∀ item ∈ m.bare.attributes, item.Plain m.transaction)
    {before rest : List Attribute} {item : Attribute}
    (hbare : m.bare.attributes = before ++ item :: rest)
    (hlow : 24 + (before.flatMap (·.encode m.transaction)).length ≤ start)
    (hhigh : start + part.length ≤ 20 + (before.flatMap (·.encode m.transaction)).length +
      (item.encode m.transaction).length) :
    decode (m.addFingerprint.encode.patch start part) = .error .fingerprintMismatch := by
  rw [hbare, List.forall_mem_append, List.forall_mem_cons] at hplain
  obtain ⟨front, hfront, hencode, hrecord⟩ := unsealed_encode hplain.2.1
  have hbody : m.bare.body = before.flatMap (·.encode m.transaction) ++
      (item.encode m.transaction ++ rest.flatMap (·.encode m.transaction)) := by
    rw [body, hbare, List.flatMap_append, List.flatMap_cons]
    rfl
  have hsplit : m.bare.body = before.flatMap (·.encode m.transaction) ++ front ++
      (item.value m.transaction ++
        List.replicate (padding (item.value m.transaction).length) 0) ++
          rest.flatMap (·.encode m.transaction) := by
    rw [hbody, hencode]
    simp only [List.append_assoc]
  rw [hencode, List.length_append, hfront] at hhigh
  refine decode_patch_value hsize hshort hchange hsplit ?_ ?_ ?_
  · intro new hlength
    rw [List.length_append, List.length_replicate] at hlength
    rw [List.append_assoc (before.flatMap _) front]
    exact ((unsealed_flatMap_encode hplain.1).append (hrecord new hlength)).append
      (unsealed_flatMap_encode hplain.2.2)
  · rw [List.length_append, hfront]
    omega
  · rw [List.length_append, hfront]
    omega

theorem decode_patch_fingerprint (hbody : Unsealed m.bare.body)
    (hlow : 24 + m.bare.body.length ≤ start)
    (hhigh : start + part.length ≤ 28 + m.bare.body.length) :
    decode (m.addFingerprint.encode.patch start part) = .error .fingerprintMismatch := by
  let front := header m.messageClass (m.bare.body.length + 8) m.transaction ++ m.bare.body ++
    fingerprintFront
  have hfront : front.length = 24 + m.bare.body.length := by
    rw [List.length_append, List.length_append, length_header]
    exact Nat.add_right_comm 20 m.bare.body.length 4
  have hsplit : m.addFingerprint.encode = front ++ Bytes.ofWord32 m.stamp ++ [] := by
    rw [encode_addFingerprint, encode_fingerprint, List.append_nil, ← List.append_assoc]
  rw [hsplit] at hchange ⊢
  obtain ⟨new, hburst, hpatch⟩ := Checksum.Burst.of_patch (hfront.trans_le hlow)
    (by rw [hfront, Bytes.length_ofWord32]; omega) hshort hchange
  rw [hpatch, List.append_nil, List.append_assoc]
  exact decode_forged hsize rfl hbody (hburst.length_eq.trans (Bytes.length_ofWord32 _)) hburst.ne

end

theorem bare_split {m : Message} {before after : List Attribute} {item : Attribute}
    (h : m.addFingerprint.attributes = before ++ item :: after) :
    (before = m.bare.attributes ∧ item = .fingerprint m.stamp) ∨
      ∃ rest, m.bare.attributes = before ++ item :: rest := by
  have hsplit : m.bare.attributes ++ [.fingerprint m.stamp] = before ++ item :: after := h
  rcases List.append_eq_append_iff.mp hsplit with ⟨inner, hbefore, hrest⟩ | ⟨inner, hbare, hrest⟩
  · cases inner with
    | nil =>
      rw [List.append_nil] at hbefore
      exact .inl ⟨hbefore, (List.cons.inj hrest).1.symm⟩
    | cons head tail => cases (List.append_eq_nil_iff.mp (List.cons.inj hrest).2.symm).2
  · cases inner with
    | nil =>
      rw [List.append_nil] at hbare
      exact .inl ⟨hbare.symm, (List.cons.inj hrest).1⟩
    | cons head tail =>
      obtain ⟨rfl, -⟩ := List.cons.inj hrest
      exact .inr ⟨tail, hbare⟩

/-- A fingerprinted message is accepted as it was written, and refused for its fingerprint after any
change of up to four bytes in a row that moves no record. -/
theorem addFingerprint_detects_burst {m : Message}
    (hsize : m.addFingerprint.body.length ≤ 65535)
    (hraw : ∀ data, .unknown AttributeType.fingerprint data ∈ m.addFingerprint.attributes →
      data.length ≠ 4) :
    (∃ read, decode m.addFingerprint.encode = .ok read) ∧
    ∀ start part, m.addFingerprint.Encloses start part.length → part.length ≤ 4 →
      m.addFingerprint.encode.patch start part ≠ m.addFingerprint.encode →
        decode (m.addFingerprint.encode.patch start part) = .error .fingerprintMismatch := by
  have hfits : m.bare.body.length + 8 ≤ 65535 := by
    rwa [body_addFingerprint, List.length_append, length_encode_fingerprint] at hsize
  have hplain : ∀ item ∈ m.bare.attributes, item.Plain m.transaction :=
    plain_of_mem_bare (by omega) fun data hmem => hraw data (List.mem_append_left _ hmem)
  have hbody : Unsealed m.bare.body := unsealed_flatMap_encode hplain
  refine ⟨⟨_, decode_encode_addFingerprint hsize fun data hmem => ?_⟩, ?_⟩
  · exact hraw data (List.mem_append_left _ (List.mem_filter.mpr ⟨hmem, rfl⟩))
  · intro start part hrange hshort hchange
    rcases hrange with ⟨hlow, hhigh⟩ | ⟨before, item, after, hitems, hlow, hhigh⟩
    · exact decode_patch_transaction hfits hshort hchange hbody hlow hhigh
    · rw [transaction_addFingerprint] at hlow hhigh
      rcases bare_split hitems with ⟨rfl, rfl⟩ | ⟨rest, hbare⟩
      · rw [length_encode_fingerprint] at hhigh
        have hflat : (m.bare.attributes.flatMap (·.encode m.transaction)).length =
            m.bare.body.length := rfl
        rw [hflat] at hlow hhigh
        exact decode_patch_fingerprint hfits hshort hchange hbody (by omega) (by omega)
      · exact decode_patch_item hfits hshort hchange hplain hbare (by omega) hhigh

/-- Raw data of the fingerprint's type that is too long for one, changed at its last byte and in
its padding. -/
theorem addFingerprint_detects_burst_padding :
    let m : Message := ⟨.success, .zero, [.fingerprint 7,
      .unknown AttributeType.fingerprint [1, 2, 3, 4, 5], .changeRequest true false]⟩
    m.addFingerprint.body.length ≤ 65535 ∧
    (∀ data, .unknown AttributeType.fingerprint data ∈ m.addFingerprint.attributes →
      data.length ≠ 4) ∧
    (∃ read, decode m.addFingerprint.encode = .ok read) ∧
    m.addFingerprint.Encloses 28 3 ∧
    m.addFingerprint.encode.patch 28 [9, 0, 7] ≠ m.addFingerprint.encode ∧
    decode (m.addFingerprint.encode.patch 28 [9, 0, 7]) = .error .fingerprintMismatch := by
  intro m
  have hsize : m.addFingerprint.body.length ≤ 65535 := by decide
  have hraw : ∀ data, .unknown AttributeType.fingerprint data ∈ m.addFingerprint.attributes →
      data.length ≠ 4 := by
    simp [m, addFingerprint, add, Attribute.isFingerprint]
  have hrange : m.addFingerprint.Encloses 28 3 :=
    .inr ⟨[], _, _, rfl, by decide, by decide⟩
  have hchange : m.addFingerprint.encode.patch 28 [9, 0, 7] ≠ m.addFingerprint.encode := by
    decide +kernel
  obtain ⟨haccepted, hrefused⟩ := addFingerprint_detects_burst hsize hraw
  exact ⟨hsize, hraw, haccepted, hrange, hchange,
    hrefused 28 [9, 0, 7] hrange (by decide) hchange⟩

end Message

end NatBehavior.Stun
