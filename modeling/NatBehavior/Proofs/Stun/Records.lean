import NatBehavior.Proofs.Stun.Values

/-! The grammar of a body: records of type, length and value, padded to multiples of four. The
reader runs over suffixes with the checksum register beside it; the grammar speaks of offsets in
the whole message. Both agree on what is read and on which record is at fault. -/
namespace NatBehavior.Stun

/-! ### One step of reading -/

theorem decodeAttributes_of_length_lt {id : TransactionId} {register : UInt32} {body : Bytes}
    (h : body.length < 4) : decodeAttributes id register body = .ok [] := by
  rw [decodeAttributes]
  intro t u l m rest hbody
  rw [hbody] at h
  simp only [List.length_cons] at h
  omega

theorem decodeAttributes_overrun {id : TransactionId} {register : UInt32} {t u l m : UInt8}
    {rest : Bytes} (h : rest.length < (Bytes.word16 l m).toNat) :
    decodeAttributes id register (t :: u :: l :: m :: rest) = .error .invalidAttribute := by
  rw [decodeAttributes, if_pos]
  rw [List.length_take]
  omega

/-- What a record in front does to the reading of those behind it. -/
def accept (register : UInt32) (item? : Option Attribute)
    (others : Except StunError (List Attribute)) : Except StunError (List Attribute) :=
  match item? with
  | none => others
  | some item =>
    if item.verifies register then others.map (item :: ·) else .error .fingerprintMismatch

theorem decodeAttributes_record {id : TransactionId} {register : UInt32} {t u l m : UInt8}
    {value pad rest : Bytes} (hvalue : value.length = (Bytes.word16 l m).toNat)
    (hpad : pad.length = padding value.length ∨ rest = [] ∧ pad.length < padding value.length) :
    decodeAttributes id register (t :: u :: l :: m :: (value ++ pad ++ rest)) =
      accept register (Attribute.ofValue? id (Bytes.word16 t u) value)
        (decodeAttributes id
          (Checksum.feed register (t :: u :: l :: m :: (value ++ pad))) rest) := by
  have hread : (value ++ pad ++ rest).take value.length = value := by
    rw [List.append_assoc, List.take_left]
  have htake :
      (value ++ pad ++ rest).take (value.length + padding value.length) = value ++ pad := by
    rcases hpad with hpad | ⟨rfl, hpad⟩
    · rw [← hpad, ← List.length_append, List.take_left]
    · rw [List.append_nil, List.take_of_length_le]
      rw [List.length_append]
      omega
  have hdrop : (value ++ pad ++ rest).drop (value.length + padding value.length) = rest := by
    rcases hpad with hpad | ⟨rfl, hpad⟩
    · rw [← hpad, ← List.length_append, List.drop_left]
    · rw [List.append_nil, List.drop_of_length_le]
      rw [List.length_append]
      omega
  have hfeed : Checksum.feed (Checksum.feed register [t, u, l, m]) (value ++ pad) =
      Checksum.feed register (t :: u :: l :: m :: (value ++ pad)) :=
    (Checksum.feed_append register [t, u, l, m] (value ++ pad)).symm
  rw [decodeAttributes]
  simp only [← hvalue, hread, htake, hdrop, hfeed, Nat.lt_irrefl, if_false]
  rfl

/-! ### The grammar -/

/-- A record of a body: its offset in the message, its type, the length it declares, and the
bytes of its value that are there. -/
structure Record where
  start : Nat
  type : UInt16
  length : Nat
  value : Bytes
deriving DecidableEq, Repr

/-- How a body splits from the left, given its offset in the message. Every record is padded to a
multiple of four. The padding of the last may be cut off, a value that runs past the end ends the
body, and up to three bytes may be left over. -/
inductive Splits : Nat → Bytes → List Record → Prop
  | leftover {start : Nat} {rest : Bytes} (hrest : rest.length < 4) : Splits start rest []
  | overrun {start : Nat} {t u l m : UInt8} {value : Bytes}
      (hvalue : value.length < (Bytes.word16 l m).toNat) :
      Splits start (t :: u :: l :: m :: value)
        [⟨start, Bytes.word16 t u, (Bytes.word16 l m).toNat, value⟩]
  | cutPadding {start : Nat} {t u l m : UInt8} {value pad : Bytes}
      (hvalue : value.length = (Bytes.word16 l m).toNat)
      (hpad : pad.length < padding value.length) :
      Splits start (t :: u :: l :: m :: (value ++ pad))
        [⟨start, Bytes.word16 t u, (Bytes.word16 l m).toNat, value⟩]
  | record {start : Nat} {t u l m : UInt8} {value pad rest : Bytes} {records : List Record}
      (hvalue : value.length = (Bytes.word16 l m).toNat)
      (hpad : pad.length = padding value.length)
      (hrest : Splits (start + (4 + value.length + pad.length)) rest records) :
      Splits start (t :: u :: l :: m :: (value ++ pad ++ rest))
        (⟨start, Bytes.word16 t u, (Bytes.word16 l m).toNat, value⟩ :: records)

/-- The records of a body, given its offset in the message. -/
def recordsAt (start : Nat) : Bytes → List Record
  | t :: u :: l :: m :: rest =>
    let length := (Bytes.word16 l m).toNat
    let record := length + padding length
    ⟨start, Bytes.word16 t u, length, rest.take length⟩ ::
      recordsAt (start + (4 + record)) (rest.drop record)
  | _ => []
  termination_by body => body.length
  decreasing_by simp only [List.length_cons, List.length_drop]; omega

theorem recordsAt_of_length_lt {start : Nat} {body : Bytes} (h : body.length < 4) :
    recordsAt start body = [] := by
  rw [recordsAt]
  intro t u l m rest hbody
  rw [hbody] at h
  simp only [List.length_cons] at h
  omega

theorem padding_lt (n : Nat) : padding n < 4 := by
  unfold padding
  omega

theorem splits_recordsAt (start : Nat) (body : Bytes) :
    Splits start body (recordsAt start body) := by
  fun_induction recordsAt start body with
  | case1 start t u l m rest length record ih =>
    by_cases hover : rest.length < length
    · rw [List.take_of_length_le hover.le, List.drop_of_length_le (by omega),
        recordsAt_of_length_lt (by decide)]
      exact .overrun hover
    have hvalue : (rest.take length).length = length := by
      rw [List.length_take]
      omega
    by_cases hcut : rest.length < record
    · have hpad : (rest.drop length).length < padding (rest.take length).length := by
        rw [hvalue, List.length_drop]
        omega
      have hsplit : Splits start (t :: u :: l :: m :: (rest.take length ++ rest.drop length))
          [⟨start, Bytes.word16 t u, length, rest.take length⟩] := .cutPadding hvalue hpad
      rw [List.take_append_drop] at hsplit
      rw [List.drop_of_length_le hcut.le, recordsAt_of_length_lt (by decide)]
      exact hsplit
    · let pad := (rest.drop length).take (padding length)
      have hpad : pad.length = padding (rest.take length).length := by
        rw [hvalue, List.length_take, List.length_drop]
        omega
      have hjoin : rest.take length ++ pad ++ rest.drop record = rest := by
        rw [← List.take_add, List.take_append_drop]
      have hsplit : Splits start
          (t :: u :: l :: m :: (rest.take length ++ pad ++ rest.drop record))
          (⟨start, Bytes.word16 t u, length, rest.take length⟩ ::
            recordsAt (start + (4 + record)) (rest.drop record)) := by
        refine .record hvalue hpad ?_
        rw [hpad, hvalue, Nat.add_assoc 4]
        exact ih
      rw [hjoin] at hsplit
      exact hsplit
  | case2 start body hshort =>
    refine .leftover ?_
    by_contra hlength
    obtain ⟨t, u, l, m, rest, rfl⟩ := exists_eq_of_four_le (Nat.le_of_not_lt hlength)
    exact hshort t u l m rest rfl

theorem Splits.eq_recordsAt {start : Nat} {body : Bytes} {records : List Record}
    (h : Splits start body records) : records = recordsAt start body := by
  induction h with
  | leftover hrest => exact (recordsAt_of_length_lt hrest).symm
  | overrun hvalue =>
    rw [recordsAt, List.take_of_length_le hvalue.le, List.drop_of_length_le (by omega),
      recordsAt_of_length_lt (by decide)]
  | cutPadding hvalue hpad =>
    rw [recordsAt, ← hvalue, List.take_left, List.drop_of_length_le,
      recordsAt_of_length_lt (by decide)]
    rw [List.length_append]
    omega
  | record hvalue hpad hrest ih =>
    rename_i start t u l m value pad rest records
    have hread : (value ++ pad ++ rest).take value.length = value := by
      rw [List.append_assoc, List.take_left]
    have hdrop : (value ++ pad ++ rest).drop (value.length + padding value.length) = rest := by
      rw [← hpad, ← List.length_append, List.drop_left]
    rw [recordsAt]
    simp only [← hvalue, hread, hdrop]
    rw [ih, hpad, Nat.add_assoc 4]

theorem splits_iff {start : Nat} {body : Bytes} {records : List Record} :
    Splits start body records ↔ records = recordsAt start body := by
  constructor
  · exact Splits.eq_recordsAt
  · rintro rfl
    exact splits_recordsAt start body

/-! ### What is read of the records -/

namespace Record

/-- The value runs past the end of the body. -/
def Overruns (r : Record) : Prop := r.value.length < r.length

/-- A fingerprint that does not stand for the bytes in front of it. -/
def Forged (bytes : Bytes) (r : Record) : Prop :=
  r.type = AttributeType.fingerprint ∧ r.value.length = 4 ∧
    r.value ≠ Bytes.ofWord32 (Checksum.crc32 (bytes.take r.start) ^^^ fingerprintMask)

instance (r : Record) : Decidable r.Overruns := inferInstanceAs (Decidable (_ < _))

instance (bytes : Bytes) (r : Record) : Decidable (r.Forged bytes) :=
  inferInstanceAs (Decidable (_ ∧ _))

/-- What is wrong with a record of a message. -/
def fault? (bytes : Bytes) (r : Record) : Option StunError :=
  if r.Overruns then some .invalidAttribute
  else if r.Forged bytes then some .fingerprintMismatch
  else none

/-- The attribute of a record, none where the value is malformed. -/
def attribute? (id : TransactionId) (r : Record) : Option Attribute :=
  Attribute.ofValue? id r.type r.value

theorem forged_iff {bytes : Bytes} {id : TransactionId} {r : Record} :
    r.Forged bytes ↔ ∃ item, r.attribute? id = some item ∧
      item.verifies (Checksum.feed Checksum.preset (bytes.take r.start)) = false := by
  unfold Forged attribute?
  constructor
  · rintro ⟨htype, hlength, hvalue⟩
    obtain ⟨w, hw⟩ := Option.isSome_iff_exists.mp (isSome_word32OfValue?.mpr hlength)
    rw [word32OfValue?_eq_some_iff] at hw
    refine ⟨.fingerprint w, ?_, ?_⟩
    · rw [htype, hw]
      exact congrArg (Option.map _) (word32OfValue?_ofWord32 w)
    · refine decide_eq_false ?_
      intro hsame
      exact hvalue (hw.trans (congrArg Bytes.ofWord32 hsame.symm))
  · rintro ⟨item, hread, hverify⟩
    cases item with
    | fingerprint w =>
      have htype : r.type = AttributeType.fingerprint :=
        Attribute.eq_type_of_ofValue? hread
          (by decide : AttributeType.fingerprint ≠ AttributeType.xorMappedAddress)
      rw [htype] at hread
      obtain ⟨_, hword, hsame⟩ := Option.map_eq_some_iff.mp hread
      cases hsame
      have hvalue := word32OfValue?_eq_some_iff.mp hword
      refine ⟨htype, by rw [hvalue, Bytes.length_ofWord32], ?_⟩
      intro hother
      rw [hother, word32OfValue?_ofWord32, Option.some.injEq] at hword
      exact of_decide_eq_false hverify hword
    | _ => cases hverify

end Record

/-- The attributes of the records of a message, or the first fault. -/
def verdict (bytes : Bytes) (id : TransactionId) (records : List Record) :
    Except StunError (List Attribute) :=
  match records.findSome? (·.fault? bytes) with
  | some e => .error e
  | none => .ok (records.filterMap (·.attribute? id))

theorem verdict_cons_of_overruns {bytes : Bytes} {id : TransactionId} {r : Record}
    {records : List Record} (h : r.Overruns) :
    verdict bytes id (r :: records) = .error .invalidAttribute := by
  have hfault : r.fault? bytes = some .invalidAttribute := if_pos h
  rw [verdict, List.findSome?_cons, hfault]

theorem verdict_cons_of_forged {bytes : Bytes} {id : TransactionId} {r : Record}
    {records : List Record} (hfits : ¬ r.Overruns) (h : r.Forged bytes) :
    verdict bytes id (r :: records) = .error .fingerprintMismatch := by
  have hfault : r.fault? bytes = some .fingerprintMismatch := by
    rw [Record.fault?, if_neg hfits, if_pos h]
  rw [verdict, List.findSome?_cons, hfault]

theorem verdict_cons_of_sound {bytes : Bytes} {id : TransactionId} {r : Record}
    {records : List Record} (hfits : ¬ r.Overruns) (h : ¬ r.Forged bytes) :
    verdict bytes id (r :: records) =
      (verdict bytes id records).map ((r.attribute? id).toList ++ ·) := by
  have hfault : r.fault? bytes = none := by
    rw [Record.fault?, if_neg hfits, if_neg h]
  unfold verdict
  rw [List.findSome?_cons, hfault]
  dsimp only
  cases records.findSome? (·.fault? bytes) with
  | some e => rfl
  | none =>
    rw [List.filterMap_cons]
    cases r.attribute? id <;> rfl

theorem accept_verdict {bytes : Bytes} {id : TransactionId} {r : Record} {records : List Record}
    (hfits : ¬ r.Overruns) :
    accept (Checksum.feed Checksum.preset (bytes.take r.start)) (r.attribute? id)
      (verdict bytes id records) = verdict bytes id (r :: records) := by
  by_cases hforged : r.Forged bytes
  · rw [verdict_cons_of_forged hfits hforged]
    obtain ⟨item, hread, hverify⟩ := Record.forged_iff.mp hforged
    rw [hread, accept, if_neg (by rw [hverify]; decide)]
  · rw [verdict_cons_of_sound hfits hforged]
    cases hread : r.attribute? id with
    | none => cases verdict bytes id records <;> rfl
    | some item =>
      have hverify : item.verifies (Checksum.feed Checksum.preset (bytes.take r.start)) = true := by
        by_contra hverify
        exact hforged (Record.forged_iff.mpr ⟨item, hread, Bool.eq_false_iff.mpr hverify⟩)
      rw [accept, if_pos hverify]
      rfl

/-- The reader judges the records of the body one after another. The register it carries is that
of the bytes in front, which is the invariant of the induction. -/
theorem decodeAttributes_eq_verdict (id : TransactionId) {start : Nat} {body : Bytes}
    {records : List Record} (hsplit : Splits start body records) :
    ∀ front tail : Bytes, front.length = start →
      decodeAttributes id (Checksum.feed Checksum.preset front) body =
        verdict (front ++ body ++ tail) id records := by
  induction hsplit with
  | leftover hrest =>
    intro front tail _
    rw [decodeAttributes_of_length_lt hrest]
    rfl
  | overrun hvalue =>
    intro front tail _
    rw [decodeAttributes_overrun hvalue, verdict_cons_of_overruns]
    exact hvalue
  | cutPadding hvalue hpad =>
    rename_i start t u l m value pad
    rintro front tail rfl
    have htake :
        (front ++ t :: u :: l :: m :: (value ++ pad) ++ tail).take front.length = front := by
      rw [List.append_assoc, List.take_left]
    rw [← accept_verdict (Nat.not_lt.mpr hvalue.ge), htake]
    rw [← List.append_nil (value ++ pad), decodeAttributes_record hvalue (.inr ⟨rfl, hpad⟩),
      decodeAttributes_of_length_lt (by decide)]
    rfl
  | record hvalue hpad hrest ih =>
    rename_i start t u l m value pad rest records
    rintro front tail rfl
    have htake : (front ++ t :: u :: l :: m :: (value ++ pad ++ rest) ++ tail).take front.length =
        front := by
      rw [List.append_assoc, List.take_left]
    rw [← accept_verdict (Nat.not_lt.mpr hvalue.ge), htake,
      decodeAttributes_record hvalue (.inl hpad)]
    have hlength : (front ++ t :: u :: l :: m :: (value ++ pad)).length =
        front.length + (4 + value.length + pad.length) := by
      simp only [List.length_append, List.length_cons]
      omega
    have hnext := ih (front ++ t :: u :: l :: m :: (value ++ pad)) tail hlength
    rw [Checksum.feed_append] at hnext
    rw [hnext]
    simp only [List.append_assoc, List.cons_append]
    rfl

theorem Record.fault?_eq_none_iff {bytes : Bytes} {r : Record} :
    r.fault? bytes = none ↔ ¬ r.Overruns ∧ ¬ r.Forged bytes := by
  unfold Record.fault?
  by_cases hover : r.Overruns <;> by_cases hforged : r.Forged bytes <;> simp [hover, hforged]

theorem findSome?_fault?_eq_none_iff {bytes : Bytes} {records : List Record} :
    records.findSome? (·.fault? bytes) = none ↔
      ∀ r ∈ records, ¬ r.Overruns ∧ ¬ r.Forged bytes := by
  simp only [List.findSome?_eq_none_iff, Record.fault?_eq_none_iff]

theorem findSome?_fault?_append {bytes : Bytes} {r : Record} {before after : List Record}
    (hbefore : ∀ q ∈ before, ¬ q.Overruns ∧ ¬ q.Forged bytes) {e : StunError}
    (hfault : r.fault? bytes = some e) :
    (before ++ r :: after).findSome? (·.fault? bytes) = some e := by
  rw [List.findSome?_append, findSome?_fault?_eq_none_iff.mpr hbefore, List.findSome?_cons, hfault]
  rfl

theorem filter_wellFormed_map_attribute? (id : TransactionId) (records : List Record) :
    (records.filter fun r => WellFormed r.type r.value).map (·.attribute? id) =
      (records.filterMap (·.attribute? id)).map some := by
  induction records with
  | nil => rfl
  | cons r records ih =>
    have hform : (r.attribute? id).isSome ↔ WellFormed r.type r.value := isSome_ofValue?_iff
    rw [List.filter_cons, List.filterMap_cons]
    cases hread : r.attribute? id with
    | none =>
      rw [if_neg, ih]
      rw [decide_eq_true_iff, ← hform, hread]
      decide
    | some item =>
      rw [if_pos, List.map_cons, List.map_cons, ih, hread]
      rw [decide_eq_true_iff, ← hform, hread]
      rfl

end NatBehavior.Stun
