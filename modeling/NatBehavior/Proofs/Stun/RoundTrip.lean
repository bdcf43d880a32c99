import NatBehavior.Proofs.Stun.Grammar

/-! Which messages are read back as they were written. Length fields of sixteen bits wrap, so a
long body or value is cut when it is read. What is left of it is never read as the same message:
texts and raw values come out shorter, and an error reason cannot hold a whole error record. -/
namespace NatBehavior.Stun

/-! ### Written attributes -/

theorem toNat_word16_ofNat (n : Nat) :
    (Bytes.word16 (n.toUInt16.toNat / 256).toUInt8 n.toUInt16.toNat.toUInt8).toNat = n % 65536 := by
  rw [Bytes.word16_ofWord16, Nat.toUInt16, UInt16.toNat_ofNat']

theorem add_padding (n : Nat) : n + padding n = (n + 3) / 4 * 4 := by
  unfold padding
  omega

namespace Attribute

/-- The bytes an attribute takes: four in front of its value, which is padded. -/
def size (id : TransactionId) (item : Attribute) : Nat :=
  4 + ((item.value id).length + 3) / 4 * 4

theorem encode_eq_cons (id : TransactionId) (item : Attribute) :
    ∃ t u l m, Bytes.word16 t u = item.type ∧
      (Bytes.word16 l m).toNat = (item.value id).length % 65536 ∧
      item.encode id = t :: u :: l :: m ::
        (item.value id ++ List.replicate (padding (item.value id).length) 0) :=
  ⟨_, _, _, _, Bytes.word16_ofWord16 _, toNat_word16_ofNat _, by
    simp only [encode, Bytes.ofWord16, List.cons_append, List.nil_append]⟩

theorem length_encode (id : TransactionId) (item : Attribute) :
    (item.encode id).length = item.size id := by
  have hpad := add_padding (item.value id).length
  simp only [encode, size, List.length_append, Bytes.length_ofWord16, List.length_replicate]
  omega

theorem length_flatMap_encode (id : TransactionId) (items : List Attribute) :
    (items.flatMap (encode id)).length = (items.map (size id)).sum := by
  rw [List.length_flatMap]
  exact congrArg (fun f => (items.map f).sum) (funext (length_encode id))

theorem size_mod_four (id : TransactionId) (item : Attribute) : item.size id % 4 = 0 := by
  unfold size
  omega

theorem sum_size_mod_four (id : TransactionId) (items : List Attribute) :
    (items.map (size id)).sum % 4 = 0 := by
  induction items with
  | nil => rfl
  | cons item items ih =>
    have hitem := size_mod_four id item
    rw [List.map_cons, List.sum_cons]
    omega

theorem length_addressValue_le (e : Endpoint) : (addressValue e).length ≤ 20 := by
  cases e with
  | v4 ip port =>
    simp only [addressValue, List.length_append, List.length_cons, List.length_nil,
      Bytes.length_ofWord16, Ipv4.length_octets]
    omega
  | v6 ip port flow scope =>
    simp only [addressValue, List.length_append, List.length_cons, List.length_nil,
      Bytes.length_ofWord16, Ipv6.length_octets]
    omega

theorem unbounded_of_lt_length {id : TransactionId} {item : Attribute}
    (h : 20 < (item.value id).length) :
    (∃ code reason, item = .errorCode code reason) ∨ (∃ name, item = .software name) ∨
      ∃ type data, item = .unknown type data := by
  cases item with
  | errorCode code reason => exact .inl ⟨code, reason, rfl⟩
  | software name => exact .inr (.inl ⟨name, rfl⟩)
  | unknown type data => exact .inr (.inr ⟨type, data, rfl⟩)
  | changeRequest _ _ | fingerprint _ =>
    rw [value, Bytes.length_ofWord32] at h
    omega
  | mappedAddress e | changedAddress e | otherAddress e =>
    exact absurd (length_addressValue_le e) (Nat.not_le.mpr h)
  | xorMappedAddress e => exact absurd (length_addressValue_le (mask id e)) (Nat.not_le.mpr h)

end Attribute

/-! ### What is read comes from a record -/

theorem accept_some_eq_ok_cons_iff {register : UInt32} {read item : Attribute}
    {others : Except StunError (List Attribute)} {items : List Attribute} :
    accept register (some read) others = .ok (item :: items) ↔
      read = item ∧ item.verifies register ∧ others = .ok items := by
  unfold accept
  dsimp only
  split
  · rename_i hverify
    cases others with
    | error e => exact iff_of_false (fun h => nomatch h) (fun h => nomatch h.2.2)
    | ok list =>
      simp only [Except.map, Except.ok.injEq, List.cons.injEq]
      constructor
      · rintro ⟨rfl, rfl⟩
        exact ⟨rfl, hverify, rfl⟩
      · rintro ⟨rfl, -, rfl⟩
        exact ⟨rfl, rfl⟩
  · rename_i hverify
    refine iff_of_false (fun h => nomatch h) ?_
    rintro ⟨rfl, hsame, -⟩
    exact hverify hsame

theorem decodeAttributes_cons (id : TransactionId) (register : UInt32) (t u : UInt8) {l m : UInt8}
    {rest : Bytes} {length : Nat} (hlength : (Bytes.word16 l m).toNat = length)
    (hfits : length ≤ rest.length) :
    ∃ next, decodeAttributes id register (t :: u :: l :: m :: rest) =
      accept register (Attribute.ofValue? id (Bytes.word16 t u) (rest.take length))
        (decodeAttributes id next (rest.drop (length + padding length))) := by
  subst hlength
  refine ⟨Checksum.feed (Checksum.feed register [t, u, l, m])
    (rest.take ((Bytes.word16 l m).toNat + padding (Bytes.word16 l m).toNat)), ?_⟩
  rw [decodeAttributes, if_neg]
  · rfl
  · rw [List.length_take]
    omega

theorem cons_eq_append_of_drop_eq {t u l m : UInt8} {rest front tail : Bytes} {n : Nat}
    (h : rest.drop n = front ++ tail) :
    t :: u :: l :: m :: rest = t :: u :: l :: m :: (rest.take n ++ front) ++ tail := by
  rw [List.cons_append, List.cons_append, List.cons_append, List.cons_append, List.append_assoc,
    ← h, List.take_append_drop]

theorem exists_record_of_mem {id : TransactionId} {register : UInt32} {body : Bytes}
    {items : List Attribute} (h : decodeAttributes id register body = .ok items)
    {item : Attribute} (hmem : item ∈ items) :
    ∃ front t u l m value more, body = front ++ t :: u :: l :: m :: (value ++ more) ∧
      Attribute.ofValue? id (Bytes.word16 t u) value = some item := by
  fun_induction decodeAttributes id register body generalizing items with
  | case1 => cases h
  | case2 register t u l m rest length value hfits record next hread =>
    rename_i ih
    obtain ⟨front, t', u', l', m', value', more, hbody, hvalue⟩ := ih h hmem
    exact ⟨t :: u :: l :: m :: (rest.take record ++ front), t', u', l', m', value', more,
      cons_eq_append_of_drop_eq hbody, hvalue⟩
  | case3 register t u l m rest length value hfits record next head hread hverify =>
    rename_i ih
    cases hrest : decodeAttributes id next (rest.drop record) with
    | error e =>
      rw [hrest] at h
      cases h
    | ok others =>
      rw [hrest] at h ih
      obtain rfl := Except.ok.inj h
      rcases List.mem_cons.mp hmem with rfl | hmem
      · refine ⟨[], t, u, l, m, value, rest.drop length, ?_, hread⟩
        rw [List.nil_append, List.take_append_drop]
      · obtain ⟨front, t', u', l', m', value', more, hbody, hvalue⟩ := ih rfl hmem
        exact ⟨t :: u :: l :: m :: (rest.take record ++ front), t', u', l', m', value', more,
          cons_eq_append_of_drop_eq hbody, hvalue⟩
  | case4 => cases h
  | case5 =>
    obtain rfl := Except.ok.inj h
    cases hmem

theorem type_not_mem_of_mem {id : TransactionId} {register : UInt32} {body : Bytes}
    {items : List Attribute} (h : decodeAttributes id register body = .ok items)
    {type : UInt16} {data : Bytes} (hmem : .unknown type data ∈ items) :
    type ∉ AttributeType.interpreted := by
  obtain ⟨_, t, u, _, _, value, _, _, hread⟩ := exists_record_of_mem h hmem
  exact Attribute.type_not_mem_of_ofValue? hread

theorem eq_nine_of_word16_eq {t u : UInt8} (h : Bytes.word16 t u = AttributeType.errorCode) :
    u = 9 := by
  have hnat : (Bytes.word16 t u).toNat = 9 := congrArg UInt16.toNat h
  have hu := u.toNat_lt
  rw [Bytes.word16, Nat.toUInt16, UInt16.toNat_ofNat'] at hnat
  apply UInt8.toNat_inj.mp
  rw [show (9 : UInt8).toNat = 9 from rfl]
  omega

theorem errorCodeOfValue?_eq_some_errorCode {value : Bytes} {code : UInt16} {reason : String}
    (h : errorCodeOfValue? value = some (.errorCode code reason)) :
    4 ≤ value.length ∧ Utf8.decodeLenient (value.drop 4) = reason := by
  unfold errorCodeOfValue? at h
  split at h
  · cases h
    exact ⟨Nat.le_add_left _ _, rfl⟩
  · cases h

/-- The record of an error takes one more byte nine than its reason has tabs: the one in its
type. -/
theorem count_tab_lt_of_mem {id : TransactionId} {register : UInt32} {body : Bytes}
    {items : List Attribute} (h : decodeAttributes id register body = .ok items)
    {code : UInt16} {reason : String} (hmem : .errorCode code reason ∈ items) :
    reason.toList.count '\t' < body.count 9 := by
  obtain ⟨front, t, u, l, m, value, more, rfl, hread⟩ := exists_record_of_mem h hmem
  have htype : Bytes.word16 t u = AttributeType.errorCode :=
    Attribute.eq_type_of_ofValue? hread
      (by decide : AttributeType.errorCode ≠ AttributeType.xorMappedAddress)
  rw [htype, Attribute.ofValue?_errorCode] at hread
  have htext := (errorCodeOfValue?_eq_some_errorCode hread).2
  have hcount : (Utf8.decodeLenient (value.drop 4)).toList.count '\t' ≤ (value.drop 4).count 9 :=
    Utf8.count_decodeLenient_le (by decide : 0 < (9 : UInt8).toNat) (by decide) _
  have hdrop : (value.drop 4).count 9 ≤ value.count 9 := (List.drop_sublist 4 value).count_le 9
  rw [htext] at hcount
  rw [eq_nine_of_word16_eq htype]
  simp only [List.count_append, List.count_cons, beq_self_eq_true, if_true]
  omega

/-! ### Values too long for their length fields -/

namespace Attribute

theorem drop_value_errorCode (id : TransactionId) (code : UInt16) (reason : String) :
    (value id (.errorCode code reason)).drop 4 = Utf8.encode reason := rfl

theorem ofValue?_take_ne {id : TransactionId} {item : Attribute} {k : Nat}
    (hlong : k + 20 < (item.value id).length) :
    ofValue? id item.type ((item.value id).take k) ≠ some item := by
  intro h
  rcases unbounded_of_lt_length (by omega : 20 < (item.value id).length) with
    ⟨code, reason, rfl⟩ | ⟨name, rfl⟩ | ⟨type, data, rfl⟩
  · obtain ⟨hfour, htext⟩ := errorCodeOfValue?_eq_some_errorCode h
    rw [List.drop_take, drop_value_errorCode] at htext
    have hshort := Utf8.length_encode_le_of_decodeLenient_take htext
    have hlength : ((value id (.errorCode code reason)).drop 4).length =
        (value id (.errorCode code reason)).length - 4 := List.length_drop
    rw [drop_value_errorCode] at hlength
    rw [List.length_take] at hfour
    omega
  · have htext : Utf8.decodeLenient ((Utf8.encode name).take k) = name :=
      software.inj (Option.some.inj h)
    have hshort := Utf8.length_encode_le_of_decodeLenient_take htext
    rw [value] at hlong
    omega
  · have hmem := type_not_mem_of_ofValue? h
    have hread : ofValue? id type (data.take k) = some (.unknown type (data.take k)) :=
      ofValue?_of_not_mem hmem
    have hdata : data.take k = data := (unknown.inj (Option.some.inj (hread.symm.trans h))).2
    have hlength := congrArg List.length hdata
    rw [List.length_take] at hlength
    rw [value] at hlong
    omega

/-- Only the value of an error can be cut so short that it is not read at all. -/
theorem exists_errorCode_of_ofValue?_take_eq_none {id : TransactionId} {item : Attribute} {k : Nat}
    (hlong : 20 < (item.value id).length)
    (hraw : ∀ type data, item = .unknown type data → type ∉ AttributeType.interpreted)
    (h : ofValue? id item.type ((item.value id).take k) = none) :
    ∃ code reason, item = .errorCode code reason ∧ k < 4 := by
  rcases unbounded_of_lt_length hlong with ⟨code, reason, rfl⟩ | ⟨name, rfl⟩ | ⟨type, data, rfl⟩
  · refine ⟨code, reason, rfl, ?_⟩
    have hshort : ¬ 4 ≤ ((value id (.errorCode code reason)).take k).length := by
      rw [← isSome_errorCodeOfValue?, ← ofValue?_errorCode id]
      exact Option.not_isSome_iff_eq_none.mpr h
    rw [List.length_take] at hshort
    omega
  · cases h
  · have hread : ofValue? id type (data.take k) = some (.unknown type (data.take k)) :=
      ofValue?_of_not_mem (hraw type data rfl)
    cases hread.symm.trans h

end Attribute

theorem head_of_decodeAttributes_zero {id : TransactionId} {register : UInt32} {l m : UInt8}
    {rest : Bytes} {item : Attribute} {items : List Attribute}
    (h : decodeAttributes id register (0 :: 0 :: l :: m :: rest) = .ok (item :: items)) :
    ∃ data, item = .unknown 0 data := by
  by_cases hfits : (Bytes.word16 l m).toNat ≤ rest.length
  · obtain ⟨next, hstep⟩ := decodeAttributes_cons id register 0 0 rfl hfits
    have hread : Attribute.ofValue? id (Bytes.word16 0 0) (rest.take (Bytes.word16 l m).toNat) =
        some (.unknown 0 (rest.take (Bytes.word16 l m).toNat)) := rfl
    rw [hstep, hread] at h
    exact ⟨_, (accept_some_eq_ok_cons_iff.mp h).1.symm⟩
  · rw [decodeAttributes_overrun (Nat.lt_of_not_le hfits)] at h
    cases h

/-- Behind the cut value of an error record stands no record of the same error. -/
theorem decodeAttributes_drop_value_errorCode_ne {id : TransactionId} {register : UInt32}
    {code : UInt16} {reason : String} {k n : Nat} (hk : k < 4) {items : List Attribute} :
    decodeAttributes id register
      ((((Attribute.errorCode code reason).value id).take n).drop (k + padding k)) ≠
        .ok (.errorCode code reason :: items) := by
  intro h
  rcases Nat.eq_zero_or_pos k with rfl | hpos
  -- The value itself comes next, and its zeros are a type that stays raw.
  · by_cases hn : n < 4
    · rw [decodeAttributes_of_length_lt] at h
      · cases h
      · rw [List.length_drop, List.length_take]
        omega
    · obtain ⟨n, rfl⟩ := Nat.exists_eq_add_of_le' (Nat.le_of_not_lt hn)
      obtain ⟨data, hhead⟩ := head_of_decodeAttributes_zero h
      cases hhead
  -- The text comes next. It has too few bytes nine for a record of itself.
  · have hrecord : k + padding k = 4 := by
      unfold padding
      omega
    rw [hrecord, List.drop_take, Attribute.drop_value_errorCode] at h
    have htabs := count_tab_lt_of_mem h List.mem_cons_self
    have hcut : ((Utf8.encode reason).take (n - 4)).count 9 ≤ (Utf8.encode reason).count 9 :=
      (List.take_sublist _ _).count_le 9
    have hwritten : (Utf8.encode reason).count 9 ≤ reason.toList.count '\t' :=
      Utf8.count_encode_le (by decide : (9 : UInt8).toNat < 0x80) reason
    omega

/-- A record whose length has wrapped is not read as what was written. -/
theorem decodeAttributes_wrapped_ne {id : TransactionId} {register : UInt32} {t u l m : UInt8}
    {item : Attribute} {items : List Attribute} {n : Nat} (htype : Bytes.word16 t u = item.type)
    (hlength : (Bytes.word16 l m).toNat = (item.value id).length % 65536)
    (hlong : 65536 ≤ (item.value id).length) (hn : n < 65536) :
    decodeAttributes id register (t :: u :: l :: m :: (item.value id).take n) ≠
      .ok (item :: items) := by
  intro h
  have htake : ((item.value id).take n).length = n := by
    rw [List.length_take]
    omega
  by_cases hfits : (item.value id).length % 65536 ≤ n
  · obtain ⟨next, hstep⟩ := decodeAttributes_cons id register t u hlength (hfits.trans htake.ge)
    have hread := Attribute.ofValue?_take_ne
      (by omega : (item.value id).length % 65536 + 20 < (item.value id).length)
    have hraw := h
    rw [hstep, htype, List.take_take, Nat.min_eq_left hfits] at h
    cases hvalue : Attribute.ofValue? id item.type
        ((item.value id).take ((item.value id).length % 65536)) with
    | some read =>
      rw [hvalue, accept_some_eq_ok_cons_iff] at h
      exact hread (hvalue.trans (congrArg some h.1))
    | none =>
      have hknown : ∀ type data, item = .unknown type data → type ∉ AttributeType.interpreted := by
        rintro type data rfl
        exact type_not_mem_of_mem hraw List.mem_cons_self
      rw [hvalue] at h
      obtain ⟨code, reason, rfl, hshort⟩ :=
        Attribute.exists_errorCode_of_ofValue?_take_eq_none (by omega) hknown hvalue
      exact decodeAttributes_drop_value_errorCode_ne hshort h
  · rw [decodeAttributes_overrun (by omega)] at h
    cases h

/-! ### Bodies cut to the length their header declares -/

/-- Every fingerprint matches what is written in front of it. -/
def Sealed (id : TransactionId) : UInt32 → List Attribute → Prop
  | _, [] => True
  | register, item :: items =>
    item.verifies register ∧ Sealed id (Checksum.feed register (item.encode id)) items

theorem sealed_iff {id : TransactionId} {register : UInt32} {items : List Attribute} :
    Sealed id register items ↔ ∀ before value after,
      items = before ++ .fingerprint value :: after →
        value = Checksum.finish (Checksum.feed register (before.flatMap (Attribute.encode id))) ^^^
          fingerprintMask := by
  induction items generalizing register with
  | nil => simp [Sealed]
  | cons item items ih =>
    rw [Sealed, ih]
    constructor
    · rintro ⟨hitem, hitems⟩ before value after hsplit
      cases before with
      | nil =>
        obtain ⟨rfl, rfl⟩ := List.cons.inj hsplit
        exact (of_decide_eq_true hitem).symm
      | cons first before =>
        obtain ⟨rfl, htail⟩ := List.cons.inj hsplit
        rw [List.flatMap_cons, Checksum.feed_append]
        exact hitems before value after htail
    · intro h
      constructor
      · cases item with
        | fingerprint value => exact decide_eq_true (h [] value items rfl).symm
        | _ => rfl
      · rintro before value after rfl
        have hvalue := h (item :: before) value after rfl
        rwa [List.flatMap_cons, Checksum.feed_append] at hvalue

theorem decodeAttributes_encode_append (id : TransactionId) (register : UInt32) {item : Attribute}
    (hshort : (item.value id).length < 65536) (rest : Bytes) :
    decodeAttributes id register (item.encode id ++ rest) =
      accept register (Attribute.ofValue? id item.type (item.value id))
        (decodeAttributes id (Checksum.feed register (item.encode id)) rest) := by
  obtain ⟨t, u, l, m, htype, hlength, hencode⟩ := Attribute.encode_eq_cons id item
  rw [Nat.mod_eq_of_lt hshort] at hlength
  rw [hencode, ← htype]
  exact decodeAttributes_record hlength.symm (.inl List.length_replicate)

theorem accept_ofValue?_value_iff {id : TransactionId} {register next : UInt32} {body : Bytes}
    {item : Attribute} {items : List Attribute} :
    accept register (Attribute.ofValue? id item.type (item.value id))
        (decodeAttributes id next body) = .ok (item :: items) ↔
      item.Carried ∧ item.verifies register ∧ decodeAttributes id next body = .ok items := by
  cases hread : Attribute.ofValue? id item.type (item.value id) with
  | some read =>
    have hsame : read = item ↔ item.Carried := by
      rw [← @Attribute.ofValue?_value_eq_some_iff id item, hread, Option.some.injEq]
    rw [accept_some_eq_ok_cons_iff, hsame]
  | none =>
    refine iff_of_false ?_ ?_
    · intro h
      have hraw : ∀ type data, item = .unknown type data → type ∉ AttributeType.interpreted := by
        rintro type data rfl
        exact type_not_mem_of_mem h List.mem_cons_self
      cases hread.symm.trans (Attribute.ofValue?_value hraw)
    · intro h
      cases hread.symm.trans (Attribute.ofValue?_value_eq_some_iff.mpr h.1)

/-- A record that is cut off is not read as what was written. Sizes are multiples of four, so a
record that does not fit loses a byte of its value and not of its padding alone. -/
theorem decodeAttributes_take_encode_ne {id : TransactionId} {register : UInt32}
    {item : Attribute} {items : List Attribute} {n : Nat} (hfour : n % 4 = 0) (hn : n < 65536)
    (hcut : n < item.size id) :
    decodeAttributes id register ((item.encode id).take n) ≠ .ok (item :: items) := by
  intro h
  have hpad := add_padding (item.value id).length
  have hlt := padding_lt (item.value id).length
  unfold Attribute.size at hcut
  by_cases hempty : n < 4
  · rw [decodeAttributes_of_length_lt] at h
    · cases h
    · rw [List.length_take]
      omega
  obtain ⟨t, u, l, m, htype, hlength, hencode⟩ := Attribute.encode_eq_cons id item
  obtain ⟨n, rfl⟩ := Nat.exists_eq_add_of_le' (Nat.le_of_not_lt hempty)
  have hvalue : n < (item.value id).length := by omega
  rw [hencode, List.take_succ_cons, List.take_succ_cons, List.take_succ_cons, List.take_succ_cons,
    List.take_append_of_le_length hvalue.le] at h
  by_cases hlong : 65536 ≤ (item.value id).length
  · exact decodeAttributes_wrapped_ne htype hlength hlong (by omega) h
  · rw [Nat.mod_eq_of_lt (Nat.lt_of_not_le hlong)] at hlength
    rw [decodeAttributes_overrun] at h
    · cases h
    · rw [List.length_take]
      omega

/-- What the header lets through of the written attributes is read as these attributes exactly
when it is all of them, each is carried, and every fingerprint matches. -/
theorem decodeAttributes_take_eq_ok_iff {id : TransactionId} {register : UInt32}
    {items : List Attribute} {n : Nat} (hfour : n % 4 = 0) (hn : n < 65536) :
    decodeAttributes id register ((items.flatMap (Attribute.encode id)).take n) = .ok items ↔
      (items.map (Attribute.size id)).sum ≤ n ∧ (∀ item ∈ items, item.Carried) ∧
        Sealed id register items := by
  induction items generalizing register n with
  | nil =>
    rw [List.flatMap_nil, List.take_nil, decodeAttributes_of_length_lt (by decide)]
    simp [Sealed]
  | cons item items ih =>
    have hsize : item.size id = 4 + ((item.value id).length + padding (item.value id).length) := by
      rw [Attribute.size, add_padding]
    rw [List.flatMap_cons, List.map_cons, List.sum_cons, List.forall_mem_cons, Sealed]
    by_cases hfits : item.size id ≤ n
    · have hitem := Attribute.size_mod_four id item
      have hshort : (item.value id).length < 65536 := by omega
      have htake : (item.encode id).take n = item.encode id :=
        List.take_of_length_le (by rw [Attribute.length_encode]; exact hfits)
      rw [List.take_append, htake, Attribute.length_encode,
        decodeAttributes_encode_append id register hshort, accept_ofValue?_value_iff,
        ih (by omega) (by omega)]
      have hsum : item.size id + (items.map (Attribute.size id)).sum ≤ n ↔
          (items.map (Attribute.size id)).sum ≤ n - item.size id := by omega
      rw [hsum]
      constructor
      · rintro ⟨hcarried, hverify, hle, hall, hsealed⟩
        exact ⟨hle, ⟨hcarried, hall⟩, hverify, hsealed⟩
      · rintro ⟨hle, ⟨hcarried, hall⟩, hverify, hsealed⟩
        exact ⟨hcarried, hverify, hle, hall, hsealed⟩
    · refine iff_of_false ?_ fun h => hfits (Nat.le_trans (Nat.le_add_right _ _) h.1)
      rw [List.take_append_of_le_length (by rw [Attribute.length_encode]; omega)]
      exact decodeAttributes_take_encode_ne hfour hn (Nat.lt_of_not_le hfits)

/-! ### Whole messages -/

namespace Message

theorem length_header (c : MessageClass) (length : Nat) (id : TransactionId) :
    (header c length id).length = 20 := by
  simp only [header, List.length_append, Bytes.length_ofWord16, Bytes.length_ofWord32,
    id.length_bytes]

theorem length_body (m : Message) :
    m.body.length = (m.attributes.map (Attribute.size m.transaction)).sum :=
  Attribute.length_flatMap_encode m.transaction m.attributes

section

variable (c : MessageClass) (length : Nat) (id : TransactionId) (rest : Bytes)

theorem typeWordOf_header : typeWordOf (header c length id ++ rest) = c.typeWord :=
  Bytes.word16_ofWord16 _

theorem declaredLength_header : declaredLength (header c length id ++ rest) = length % 65536 :=
  toNat_word16_ofNat _

theorem cookieOf_header : cookieOf (header c length id ++ rest) = magicCookie :=
  Bytes.word32_ofWord32 _

theorem transactionOf_header : transactionOf (header c length id ++ rest) = id := by
  have hid : ((header c length id ++ rest).drop 8).take 12 = id.bytes := by
    have hdrop : (header c length id ++ rest).drop 8 = id.bytes ++ rest := rfl
    rw [hdrop, ← id.length_bytes, List.take_left]
  rw [transactionOf, hid, TransactionId.ofBytes?_bytes, Option.getD_some]

theorem bodyOf_header : bodyOf (header c length id ++ rest) = rest.take (length % 65536) := by
  rw [bodyOf, declaredLength_header, ← length_header c length id, List.drop_left]

end

/-- What follows a header is read up to the length that the header declares. -/
theorem decode_header {c : MessageClass} {length : Nat} {id : TransactionId} {rest : Bytes}
    (hfits : length % 65536 ≤ rest.length) :
    decode (header c length id ++ rest) =
      (decodeAttributes id (Checksum.feed Checksum.preset (header c length id))
        (rest.take (length % 65536))).map (⟨c, id, ·⟩) := by
  have hheader := length_header c length id
  have htwenty : (header c length id ++ rest).take 20 = header c length id := by
    rw [← hheader, List.take_left]
  have hlength : 20 ≤ (header c length id ++ rest).length := by
    rw [List.length_append]
    omega
  have hbody : ¬ (rest.take (length % 65536)).length < length % 65536 := by
    rw [List.length_take]
    omega
  rw [decode_of_le_length hlength, if_neg (not_not.mpr (cookieOf_header c length id rest)),
    bodyOf_header, declaredLength_header, if_neg hbody, typeWordOf_header,
    MessageClass.ofTypeWord?_typeWord, transactionOf_header, htwenty]

theorem decode_encode (m : Message) :
    decode m.encode =
      (decodeAttributes m.transaction
        (Checksum.feed Checksum.preset (header m.messageClass m.body.length m.transaction))
        (m.body.take (m.body.length % 65536))).map (⟨m.messageClass, m.transaction, ·⟩) :=
  decode_header (Nat.mod_le _ _)

/-- A message that survives the wire. -/
structure Transmissible (m : Message) : Prop where
  /-- The length of the body fits its sixteen bits. -/
  size : (m.attributes.map fun item =>
    4 + ((item.value m.transaction).length + 3) / 4 * 4).sum ≤ 65535
  code : ∀ code reason, .errorCode code reason ∈ m.attributes → code.toNat ≤ 799
  type : ∀ type data, .unknown type data ∈ m.attributes → type ∉ AttributeType.interpreted
  address : ∀ item ∈ m.attributes, ∀ ip port flow scope,
    item.address? = some (.v6 ip port flow scope) → flow = 0 ∧ scope = 0
  /-- A fingerprint stands for all bytes in front of it, at whatever position. -/
  fingerprint : ∀ before value after, m.attributes = before ++ .fingerprint value :: after →
    value = Checksum.crc32
      (m.encode.take (20 + (before.flatMap (·.encode m.transaction)).length)) ^^^ fingerprintMask

theorem take_encode {m : Message} {before after : List Attribute}
    (h : m.attributes = before ++ after) :
    m.encode.take (20 + (before.flatMap (·.encode m.transaction)).length) =
      header m.messageClass m.body.length m.transaction ++
        before.flatMap (·.encode m.transaction) := by
  have hheader := length_header m.messageClass m.body.length m.transaction
  have hencode : m.encode = (header m.messageClass m.body.length m.transaction ++
      before.flatMap (·.encode m.transaction)) ++ after.flatMap (·.encode m.transaction) := by
    rw [encode, body, h, List.flatMap_append, List.append_assoc]
  rw [hencode, ← hheader, ← List.length_append, List.take_left]

theorem transmissible_iff {m : Message} :
    m.Transmissible ↔
      (m.attributes.map (Attribute.size m.transaction)).sum ≤ 65535 ∧
      (∀ item ∈ m.attributes, item.Carried) ∧
      Sealed m.transaction
        (Checksum.feed Checksum.preset (header m.messageClass m.body.length m.transaction))
        m.attributes := by
  have hseal : Sealed m.transaction
      (Checksum.feed Checksum.preset (header m.messageClass m.body.length m.transaction))
      m.attributes ↔ ∀ before value after, m.attributes = before ++ .fingerprint value :: after →
        value = Checksum.crc32
          (m.encode.take (20 + (before.flatMap (·.encode m.transaction)).length)) ^^^
            fingerprintMask := by
    rw [sealed_iff]
    refine forall_congr' fun before => forall_congr' fun value => forall_congr' fun after =>
      forall_congr' fun hsplit => ?_
    rw [take_encode hsplit, Checksum.crc32, Checksum.feed_append]
  rw [hseal]
  constructor
  · rintro ⟨hsize, hcode, htype, haddress, hfingerprint⟩
    refine ⟨hsize, fun item hmem => Attribute.carried_iff.mpr ⟨?_, ?_, haddress item hmem⟩,
      hfingerprint⟩
    · rintro code reason rfl
      exact hcode code reason hmem
    · rintro type data rfl
      exact htype type data hmem
  · rintro ⟨hsize, hcarried, hfingerprint⟩
    exact ⟨hsize,
      fun code reason hmem => (Attribute.carried_iff.mp (hcarried _ hmem)).1 code reason rfl,
      fun type data hmem => (Attribute.carried_iff.mp (hcarried _ hmem)).2.1 type data rfl,
      fun item hmem => (Attribute.carried_iff.mp (hcarried item hmem)).2.2,
      hfingerprint⟩

theorem map_mk_eq_ok_iff {m : Message} {read : Except StunError (List Attribute)} :
    read.map (⟨m.messageClass, m.transaction, ·⟩) = .ok m ↔ read = .ok m.attributes := by
  cases read with
  | error e => exact iff_of_false (fun h => nomatch h) (fun h => nomatch h)
  | ok items =>
    constructor
    · intro h
      have hread : (⟨m.messageClass, m.transaction, items⟩ : Message) = m := Except.ok.inj h
      rw [← hread]
    · intro h
      rw [Except.ok.inj h]
      rfl

/-- The messages that are read back as they were written. -/
theorem decode_encode_eq_ok_iff (m : Message) : decode m.encode = .ok m ↔ m.Transmissible := by
  have hfour := Attribute.sum_size_mod_four m.transaction m.attributes
  have hlength := length_body m
  rw [decode_encode, map_mk_eq_ok_iff, transmissible_iff, body,
    decodeAttributes_take_eq_ok_iff (by rw [← body]; omega) (by rw [← body]; omega), ← body]
  have hsize : (m.attributes.map (Attribute.size m.transaction)).sum ≤ m.body.length % 65536 ↔
      (m.attributes.map (Attribute.size m.transaction)).sum ≤ 65535 := by
    omega
  rw [hsize]

end Message

end NatBehavior.Stun
