import Mathlib.Data.List.Forall2
import NatBehavior.Proofs.Stun.Meaning
import NatBehavior.Proofs.Stun.Records

/-! What a datagram must be to be read as a message. The header is checked in a fixed order, and
the records behind it split in one way; the first one at fault, if any, decides the error. -/
namespace NatBehavior.Stun

def typeWordOf (bytes : Bytes) : UInt16 := Bytes.word16 (bytes.getD 0 0) (bytes.getD 1 0)

/-- The length of the body that the header declares. -/
def declaredLength (bytes : Bytes) : Nat := (Bytes.word16 (bytes.getD 2 0) (bytes.getD 3 0)).toNat

def cookieOf (bytes : Bytes) : UInt32 :=
  Bytes.word32 (bytes.getD 4 0) (bytes.getD 5 0) (bytes.getD 6 0) (bytes.getD 7 0)

def transactionOf (bytes : Bytes) : TransactionId :=
  (TransactionId.ofBytes? ((bytes.drop 8).take 12)).getD .zero

def bodyOf (bytes : Bytes) : Bytes := (bytes.drop 20).take (declaredLength bytes)

theorem ofBytes?_transactionOf {bytes : Bytes} (h : 20 ≤ bytes.length) :
    TransactionId.ofBytes? ((bytes.drop 8).take 12) = some (transactionOf bytes) := by
  have hlength : ((bytes.drop 8).take 12).length = 12 := by
    rw [List.length_take, List.length_drop]
    omega
  rw [transactionOf, TransactionId.ofBytes?, dif_pos hlength]
  rfl

theorem bytes_transactionOf {bytes : Bytes} (h : 20 ≤ bytes.length) :
    (transactionOf bytes).bytes = (bytes.drop 8).take 12 := by
  have hread := ofBytes?_transactionOf h
  unfold TransactionId.ofBytes? at hread
  split at hread
  · rw [← Option.some.inj hread]
  · cases hread

theorem decode_of_length_lt {bytes : Bytes} (h : bytes.length < 20) :
    Message.decode bytes = .error .messageTooShort := by
  unfold Message.decode
  split
  · rename_i t u l m c₁ c₂ c₃ c₄ rest
    have hshort : (rest.take 12).length ≠ 12 := by
      simp only [List.length_cons] at h
      rw [List.length_take]
      omega
    rw [TransactionId.ofBytes?, dif_neg hshort]
  · rfl

theorem decode_of_le_length {bytes : Bytes} (h : 20 ≤ bytes.length) :
    Message.decode bytes =
      if cookieOf bytes ≠ magicCookie then .error .invalidMagicCookie
      else if (bodyOf bytes).length < declaredLength bytes then .error .messageTooShort
      else match MessageClass.ofTypeWord? (typeWordOf bytes) with
        | none => .error .invalidMessageType
        | some c =>
          (decodeAttributes (transactionOf bytes) (Checksum.feed Checksum.preset (bytes.take 20))
            (bodyOf bytes)).map (⟨c, transactionOf bytes, ·⟩) := by
  have hid := ofBytes?_transactionOf h
  obtain ⟨t, u, l, m, tail, rfl⟩ := exists_eq_of_four_le (by omega : 4 ≤ bytes.length)
  simp only [List.length_cons] at h
  obtain ⟨c₁, c₂, c₃, c₄, rest, rfl⟩ := exists_eq_of_four_le (by omega : 4 ≤ tail.length)
  change TransactionId.ofBytes? (rest.take 12) = _ at hid
  unfold Message.decode
  dsimp only
  rw [hid]
  rfl

/-- What the bytes that a message is read from say. -/
structure Spells (bytes : Bytes) (m : Message) : Prop where
  cookie : cookieOf bytes = magicCookie
  framed : 20 + declaredLength bytes ≤ bytes.length
  messageClass : MessageClass.ofTypeWord? (typeWordOf bytes) = some m.messageClass
  transaction : transactionOf bytes = m.transaction
  attributes : decodeAttributes m.transaction (Checksum.feed Checksum.preset (bytes.take 20))
    (bodyOf bytes) = .ok m.attributes

theorem spells_of_decode {bytes : Bytes} {m : Message} (h : Message.decode bytes = .ok m) :
    Spells bytes m := by
  by_cases h20 : bytes.length < 20
  · cases (decode_of_length_lt h20).symm.trans h
  rw [decode_of_le_length (Nat.le_of_not_lt h20)] at h
  split at h
  · cases h
  rename_i hcookie
  split at h
  · cases h
  rename_i hlength
  split at h
  · cases h
  rename_i c hclass
  cases hbody : decodeAttributes (transactionOf bytes)
    (Checksum.feed Checksum.preset (bytes.take 20)) (bodyOf bytes) with
  | error e =>
    rw [hbody] at h
    cases h
  | ok items =>
    rw [hbody] at h
    obtain rfl := Except.ok.inj h
    refine ⟨not_not.mp hcookie, ?_, hclass, rfl, hbody⟩
    rw [bodyOf, List.length_take, List.length_drop] at hlength
    omega

theorem decode_eq (bytes : Bytes) :
    Message.decode bytes =
      if bytes.length < 20 then .error .messageTooShort
      else if cookieOf bytes ≠ magicCookie then .error .invalidMagicCookie
      else if bytes.length < 20 + declaredLength bytes then .error .messageTooShort
      else match MessageClass.ofTypeWord? (typeWordOf bytes) with
        | none => .error .invalidMessageType
        | some c =>
          (verdict bytes (transactionOf bytes) (recordsAt 20 (bodyOf bytes))).map
            (⟨c, transactionOf bytes, ·⟩) := by
  by_cases h20 : bytes.length < 20
  · rw [if_pos h20, decode_of_length_lt h20]
  have hverdict : decodeAttributes (transactionOf bytes)
      (Checksum.feed Checksum.preset (bytes.take 20)) (bodyOf bytes) =
        verdict bytes (transactionOf bytes) (recordsAt 20 (bodyOf bytes)) := by
    have hjoin : bytes.take 20 ++ bodyOf bytes ++ (bytes.drop 20).drop (declaredLength bytes) =
        bytes := by
      rw [List.append_assoc, bodyOf, List.take_append_drop, List.take_append_drop]
    have hfront : (bytes.take 20).length = 20 := by
      rw [List.length_take]
      omega
    have hjudge := decodeAttributes_eq_verdict (transactionOf bytes)
      (splits_recordsAt 20 (bodyOf bytes)) (bytes.take 20)
      ((bytes.drop 20).drop (declaredLength bytes)) hfront
    rw [hjoin] at hjudge
    exact hjudge
  have hshort : (bodyOf bytes).length < declaredLength bytes ↔
      bytes.length < 20 + declaredLength bytes := by
    rw [bodyOf, List.length_take, List.length_drop]
    omega
  rw [if_neg h20, decode_of_le_length (Nat.le_of_not_lt h20)]
  simp only [hverdict, hshort]

theorem MessageClass.ofTypeWord?_eq_none_iff {word : UInt16} :
    ofTypeWord? word = none ↔ word ∉ ([0x0001, 0x0011, 0x0101, 0x0111] : List UInt16) := by
  unfold ofTypeWord?
  simp only [List.mem_cons, List.not_mem_nil, or_false, not_or]
  repeat' split
  all_goals simp_all

theorem MessageClass.typeWord_of_ofTypeWord? {word : UInt16} {c : MessageClass}
    (h : ofTypeWord? word = some c) : c.typeWord = word := by
  unfold ofTypeWord? at h
  repeat' split at h
  all_goals cases h
  all_goals simp_all [typeWord]

/-- How the records of a message decide what becomes of it. -/
structure Judged (bytes : Bytes) (records : List Record) (result : Except StunError Message) :
    Prop where
  ok_iff : (∃ m, result = .ok m) ↔ ∀ r ∈ records, ¬ r.Overruns ∧ ¬ r.Forged bytes
  error_of_overruns : ∀ before r after, records = before ++ r :: after →
    (∀ q ∈ before, ¬ q.Overruns ∧ ¬ q.Forged bytes) → r.Overruns →
      result = .error .invalidAttribute
  error_of_forged : ∀ before r after, records = before ++ r :: after →
    (∀ q ∈ before, ¬ q.Overruns ∧ ¬ q.Forged bytes) → ¬ r.Overruns → r.Forged bytes →
      result = .error .fingerprintMismatch
  read : ∀ m, result = .ok m →
    m.messageClass.typeWord = typeWordOf bytes ∧
    m.transaction.bytes = (bytes.drop 8).take 12 ∧
    (records.filter fun r => WellFormed r.type r.value).map (·.attribute? m.transaction) =
      m.attributes.map some ∧
    List.Forall₂ (fun r item => Tells m.transaction r.type r.value item)
      (records.filter fun r => WellFormed r.type r.value) m.attributes

theorem forall₂_tells {id : TransactionId} {records : List Record} {items : List Attribute}
    (h : records.map (·.attribute? id) = items.map some) :
    List.Forall₂ (fun r item => Tells id r.type r.value item) records items := by
  have hread : List.Forall₂ (· = ·) (records.map (·.attribute? id)) (items.map some) := by
    rw [List.forall₂_eq_eq_eq]
    exact h
  rw [List.forall₂_map_left_iff, List.forall₂_map_right_iff] at hread
  exact hread.imp fun r item => ofValue?_eq_some_iff.mp

theorem judged_verdict {bytes : Bytes} (h : 20 ≤ bytes.length) {c : MessageClass}
    (hclass : c.typeWord = typeWordOf bytes) (records : List Record) :
    Judged bytes records
      ((verdict bytes (transactionOf bytes) records).map (⟨c, transactionOf bytes, ·⟩)) where
  ok_iff := by
    rw [← findSome?_fault?_eq_none_iff]
    unfold verdict
    cases records.findSome? (·.fault? bytes) with
    | none => exact iff_of_true ⟨_, rfl⟩ rfl
    | some e => exact iff_of_false (fun ⟨_, hm⟩ => nomatch hm) nofun
  error_of_overruns := by
    rintro before r after rfl hbefore hover
    have hfault : r.fault? bytes = some .invalidAttribute := if_pos hover
    rw [verdict, findSome?_fault?_append hbefore hfault]
    rfl
  error_of_forged := by
    rintro before r after rfl hbefore hfits hforged
    have hfault : r.fault? bytes = some .fingerprintMismatch := by
      rw [Record.fault?, if_neg hfits, if_pos hforged]
    rw [verdict, findSome?_fault?_append hbefore hfault]
    rfl
  read := by
    intro m hm
    unfold verdict at hm
    split at hm
    · cases hm
    · obtain rfl := Except.ok.inj hm
      have hkept := filter_wellFormed_map_attribute? (transactionOf bytes) records
      exact ⟨hclass, bytes_transactionOf h, hkept, forall₂_tells hkept⟩

/-- A datagram is read exactly by its grammar, and refused for the first reason in a fixed
order. -/
theorem decode_follows_grammar (bytes : Bytes) :
    if bytes.length < 20 then Message.decode bytes = .error .messageTooShort
    else if cookieOf bytes ≠ magicCookie then Message.decode bytes = .error .invalidMagicCookie
    else if bytes.length < 20 + declaredLength bytes then
      Message.decode bytes = .error .messageTooShort
    else if typeWordOf bytes ∉ ([0x0001, 0x0011, 0x0101, 0x0111] : List UInt16) then
      Message.decode bytes = .error .invalidMessageType
    else ∃ records, (∀ others, Splits 20 (bodyOf bytes) others ↔ others = records) ∧
      Judged bytes records (Message.decode bytes) := by
  have heq := decode_eq bytes
  split
  · rw [heq, if_pos (by assumption)]
  rename_i h20
  rw [if_neg h20] at heq
  split
  · rw [heq, if_pos (by assumption)]
  rename_i hcookie
  rw [if_neg hcookie] at heq
  split
  · rw [heq, if_pos (by assumption)]
  rename_i hlength
  rw [if_neg hlength] at heq
  split
  · rename_i htype
    rw [heq, MessageClass.ofTypeWord?_eq_none_iff.mpr htype]
  rename_i htype
  cases hclass : MessageClass.ofTypeWord? (typeWordOf bytes) with
  | none => exact absurd (MessageClass.ofTypeWord?_eq_none_iff.mp hclass) htype
  | some c =>
    rw [hclass] at heq
    refine ⟨recordsAt 20 (bodyOf bytes), fun _ => splits_iff, ?_⟩
    rw [heq]
    exact judged_verdict (Nat.le_of_not_lt h20) (MessageClass.typeWord_of_ofTypeWord? hclass) _

end NatBehavior.Stun
