import Mathlib.Tactic.IntervalCases
import NatBehavior.Text.Utf8

/-! Written texts read back, and what a reading keeps of arbitrary bytes. Two facts tell a text
from a piece of its own bytes: a reading has no more characters than there were bytes, and
an ASCII character is read no more often than its byte occurs. -/
namespace NatBehavior.Utf8

theorem Range.contains_iff {r : Range} {b : UInt8} :
    r.contains b = true ↔ r.low.toNat ≤ b.toNat ∧ b.toNat ≤ r.high.toNat := by
  unfold Range.contains
  rw [Bool.and_eq_true, decide_eq_true_iff, decide_eq_true_iff, UInt8.le_iff_toNat_le,
    UInt8.le_iff_toNat_le]

theorem Range.contains_ofNat {r : Range} {n : Nat} (hn : n < 256) :
    r.contains (UInt8.ofNat n) = true ↔ r.low.toNat ≤ n ∧ n ≤ r.high.toNat := by
  rw [Range.contains_iff, UInt8.toNat_ofNat', Nat.mod_eq_of_lt hn]

theorem fitting_cons_eq {r : Range} {rs : List Range} {b : UInt8} {bs : Bytes}
    (hb : r.contains b = true) (hbs : fitting rs bs = rs.length) :
    fitting (r :: rs) (b :: bs) = (r :: rs).length := by
  rw [fitting, if_pos hb, hbs, List.length_cons]

theorem fitting_cons_eq_length_iff {r : Range} {rs : List Range} {bs : Bytes} :
    fitting (r :: rs) bs = (r :: rs).length ↔
      ∃ b rest, bs = b :: rest ∧ r.contains b = true ∧ fitting rs rest = rs.length := by
  constructor
  · intro h
    cases bs with
    | nil => simp [fitting] at h
    | cons b rest =>
      unfold fitting at h
      split at h
      · rename_i hb
        exact ⟨b, rest, rfl, hb, by simpa using h⟩
      · simp at h
  · rintro ⟨b, rest, rfl, hb, hrest⟩
    exact fitting_cons_eq hb hrest

@[simp] theorem codePoint_nil (share : Nat) : codePoint share [] = share := rfl

@[simp] theorem codePoint_cons (share : Nat) (b : UInt8) (bs : Bytes) :
    codePoint share (b :: bs) = codePoint (share * 64 + (b.toNat - 0x80)) bs := by
  rw [codePoint, List.foldl_cons, codePoint]

/-! ### The bytes of one written character -/

theorem lead_one {n : Nat} (hn : n < 0x80) : lead (UInt8.ofNat n) = some (n, []) := by
  have hbyte : (UInt8.ofNat n).toNat = n := by
    rw [UInt8.toNat_ofNat', Nat.mod_eq_of_lt (by omega)]
  unfold lead
  rw [if_pos (by rw [UInt8.lt_iff_toNat_lt, hbyte]; exact hn), hbyte]

theorem lead_two {n : Nat} (hlow : 2 ≤ n) (hhigh : n < 32) :
    lead (UInt8.ofNat (n + 0xC0)) = some (n, [tail]) := by
  interval_cases n <;> rfl

/-- The second byte of three makes the form neither overlong nor a surrogate. -/
def secondOfThree (share : Nat) : Range :=
  ⟨if share = 0 then 0xA0 else 0x80, if share = 13 then 0x9F else 0xBF⟩

/-- The second byte of four makes the form neither overlong nor too large. -/
def secondOfFour (share : Nat) : Range :=
  ⟨if share = 0 then 0x90 else 0x80, if share = 4 then 0x8F else 0xBF⟩

theorem lead_three {n : Nat} (hn : n < 16) :
    lead (UInt8.ofNat (n + 0xE0)) = some (n, [secondOfThree n, tail]) := by
  interval_cases n <;> rfl

theorem lead_four {n : Nat} (hn : n < 5) :
    lead (UInt8.ofNat (n + 0xF0)) = some (n, [secondOfFour n, tail, tail]) := by
  interval_cases n <;> rfl

theorem tail_contains (n : Nat) : tail.contains (UInt8.ofNat (n % 64 + 0x80)) = true := by
  rw [Range.contains_ofNat (by omega)]
  simp only [tail, UInt8.reduceToNat]
  omega

theorem toNat_ofNat_tail (n : Nat) : (UInt8.ofNat (n % 64 + 0x80)).toNat - 0x80 = n % 64 := by
  rw [UInt8.toNat_ofNat', Nat.mod_eq_of_lt (by omega)]
  omega

theorem pieces_cons_of_lead {b : UInt8} {share : Nat} {ranges : List Range} {bs : Bytes}
    (hlead : lead b = some (share, ranges)) (hfit : fitting ranges bs = ranges.length) :
    pieces (b :: bs) = some (Char.ofNat (codePoint share (bs.take ranges.length))) ::
      pieces (bs.drop ranges.length) := by
  rw [pieces]
  simp only [hlead, hfit, if_true]

theorem pieces_utf8EncodeChar_append (c : Char) (rest : Bytes) :
    pieces (String.utf8EncodeChar c ++ rest) = some c :: pieces rest := by
  have hvalid : c.val.toNat < 0xD800 ∨ 0xDFFF < c.val.toNat ∧ c.val.toNat < 0x110000 := c.valid
  have hback : Char.ofNat c.val.toNat = c := Char.ofNat_toNat c
  unfold String.utf8EncodeChar
  generalize c.val.toNat = v at hvalid hback
  dsimp only
  split
  · rw [List.cons_append, pieces_cons_of_lead (lead_one (by omega)) rfl]
    simp [hback]
  split
  · rw [Nat.mod_eq_of_lt (by omega : v / 64 < 32)]
    simp only [List.cons_append, List.nil_append]
    rw [pieces_cons_of_lead (lead_two (by omega) (by omega))
      (fitting_cons_eq (tail_contains v) rfl)]
    have hpoint : v / 64 * 64 + v % 64 = v := by omega
    simp only [List.length_cons, List.length_nil, List.take_succ_cons, List.take_zero,
      List.drop_succ_cons, List.drop_zero, codePoint_cons, codePoint_nil, toNat_ofNat_tail, hpoint,
      hback]
  split
  · rw [Nat.mod_eq_of_lt (by omega : v / 4096 < 16)]
    simp only [List.cons_append, List.nil_append]
    rw [pieces_cons_of_lead (lead_three (by omega))]
    · have hpoint : (v / 4096 * 64 + v / 64 % 64) * 64 + v % 64 = v := by omega
      simp only [List.length_cons, List.length_nil, List.take_succ_cons, List.take_zero,
        List.drop_succ_cons, List.drop_zero, codePoint_cons, codePoint_nil, toNat_ofNat_tail,
        hpoint, hback]
    · refine fitting_cons_eq ?_ (fitting_cons_eq (tail_contains v) rfl)
      rw [Range.contains_ofNat (by omega)]
      constructor <;> dsimp only [secondOfThree, secondOfFour] <;> split <;>
        simp only [UInt8.reduceToNat] <;> omega
  · rw [Nat.mod_eq_of_lt (by omega : v / 262144 < 8)]
    simp only [List.cons_append, List.nil_append]
    rw [pieces_cons_of_lead (lead_four (by omega))]
    · have hpoint : ((v / 262144 * 64 + v / 4096 % 64) * 64 + v / 64 % 64) * 64 + v % 64 = v := by
        omega
      simp only [List.length_cons, List.length_nil, List.take_succ_cons, List.take_zero,
        List.drop_succ_cons, List.drop_zero, codePoint_cons, codePoint_nil, toNat_ofNat_tail,
        hpoint, hback]
    · refine fitting_cons_eq ?_ (fitting_cons_eq (tail_contains (v / 64))
        (fitting_cons_eq (tail_contains v) rfl))
      rw [Range.contains_ofNat (by omega)]
      constructor <;> dsimp only [secondOfThree, secondOfFour] <;> split <;>
        simp only [UInt8.reduceToNat] <;> omega

theorem pieces_flatMap_utf8EncodeChar (cs : List Char) :
    pieces (cs.flatMap String.utf8EncodeChar) = cs.map some := by
  induction cs with
  | nil => rw [List.flatMap_nil, pieces, List.map_nil]
  | cons c cs ih => rw [List.flatMap_cons, pieces_utf8EncodeChar_append, ih, List.map_cons]

@[simp] theorem decodeLenient_encode (s : String) : decodeLenient (encode s) = s := by
  rw [decodeLenient, encode, pieces_flatMap_utf8EncodeChar, List.map_map]
  simp [Function.comp_def]

@[simp] theorem decode?_encode (s : String) : decode? (encode s) = some s := by
  have hall : ∀ cs : List Char, (cs.map some).mapM id = some cs := by
    intro cs
    induction cs with
    | nil => rfl
    | cons c cs ih => simp [List.mapM_cons, ih]
  rw [decode?, encode, pieces_flatMap_utf8EncodeChar, hall, Option.map_some, String.ofList_toList]

theorem length_encode (s : String) : (encode s).length = s.utf8ByteSize := by
  rw [← String.size_toByteArray, ← String.utf8Encode_toList, List.utf8Encode,
    List.size_toByteArray]
  rfl

/-! ### What a reading keeps -/

theorem length_pieces_le (bytes : Bytes) : (pieces bytes).length ≤ bytes.length := by
  fun_induction pieces bytes with
  | case1 => exact Nat.le_refl _
  | case2 b bs _ ih =>
    rw [List.length_cons, List.length_cons]
    omega
  | case3 b bs share ranges _ n piece ih =>
    rw [List.length_drop] at ih
    rw [List.length_cons, List.length_cons]
    omega

theorem length_utf8EncodeChar_le (c : Char) : (String.utf8EncodeChar c).length ≤ 4 := by
  rw [String.length_utf8EncodeChar]
  exact Char.utf8Size_le_four c

theorem length_flatMap_utf8EncodeChar_le (cs : List Char) :
    (cs.flatMap String.utf8EncodeChar).length ≤ 4 * cs.length := by
  induction cs with
  | nil => exact Nat.le_refl _
  | cons c cs ih =>
    have hc := length_utf8EncodeChar_le c
    rw [List.flatMap_cons, List.length_append, List.length_cons]
    omega

/-- Where the cut comes inside a character, at most three bytes are left to read. -/
theorem length_flatMap_le_of_length_pieces_take {cs : List Char} {n : Nat}
    (h : (pieces ((cs.flatMap String.utf8EncodeChar).take n)).length = cs.length) :
    (cs.flatMap String.utf8EncodeChar).length ≤ n + 9 := by
  induction cs generalizing n with
  | nil => exact Nat.zero_le _
  | cons c cs ih =>
    have hc := length_utf8EncodeChar_le c
    rw [List.flatMap_cons] at h ⊢
    by_cases hn : (String.utf8EncodeChar c).length ≤ n
    · rw [List.take_append, List.take_of_length_le hn, pieces_utf8EncodeChar_append,
        List.length_cons, List.length_cons, Nat.add_right_cancel_iff] at h
      have hrest := ih h
      rw [List.length_append]
      omega
    · have hpieces := length_pieces_le
        ((String.utf8EncodeChar c ++ cs.flatMap String.utf8EncodeChar).take n)
      rw [h, List.length_cons, List.length_take] at hpieces
      have hcs := length_flatMap_utf8EncodeChar_le cs
      rw [List.length_append]
      omega

theorem toList_decodeLenient (bytes : Bytes) :
    (decodeLenient bytes).toList = (pieces bytes).map (·.getD '\uFFFD') := by
  rw [decodeLenient, String.toList_ofList]

/-- No text is read from a piece of its own bytes that is much shorter. -/
theorem length_encode_le_of_decodeLenient_take {s : String} {n : Nat}
    (h : decodeLenient ((encode s).take n) = s) : (encode s).length ≤ n + 9 := by
  have hlist : (decodeLenient ((encode s).take n)).toList.length = s.toList.length :=
    congrArg (·.toList.length) h
  rw [toList_decodeLenient, List.length_map] at hlist
  exact length_flatMap_le_of_length_pieces_take hlist

/-- The four forms a lead byte begins. -/
theorem lead_cases {b : UInt8} {share : Nat} {ranges : List Range}
    (h : lead b = some (share, ranges)) :
    (b.toNat = share ∧ share < 0x80 ∧ ranges = []) ∨
    (b.toNat = share + 0xC0 ∧ 2 ≤ share ∧ ranges = [tail]) ∨
    (b.toNat = share + 0xE0 ∧ ranges = [secondOfThree share, tail]) ∨
    (b.toNat = share + 0xF0 ∧ ranges = [secondOfFour share, tail, tail]) := by
  unfold lead at h
  simp only [UInt8.lt_iff_toNat_lt, ← UInt8.toNat_inj, UInt8.reduceToNat] at h
  split at h
  · obtain ⟨rfl, rfl⟩ := Prod.mk.inj (Option.some.inj h)
    exact .inl ⟨rfl, by assumption, rfl⟩
  split at h
  · cases h
  split at h
  · obtain ⟨rfl, rfl⟩ := Prod.mk.inj (Option.some.inj h)
    exact .inr (.inl ⟨by omega, by omega, rfl⟩)
  refine .inr (.inr ?_)
  split at h
  · obtain ⟨rfl, rfl⟩ := Prod.mk.inj (Option.some.inj h)
    exact .inl ⟨by omega, rfl⟩
  split at h
  · obtain ⟨rfl, rfl⟩ := Prod.mk.inj (Option.some.inj h)
    exact .inl ⟨by omega, rfl⟩
  split at h
  · obtain ⟨rfl, rfl⟩ := Prod.mk.inj (Option.some.inj h)
    refine .inl ⟨by omega, ?_⟩
    rw [secondOfThree, if_neg (by omega), if_neg (by omega), tail]
  refine .inr ?_
  split at h
  · obtain ⟨rfl, rfl⟩ := Prod.mk.inj (Option.some.inj h)
    exact ⟨by omega, rfl⟩
  split at h
  · obtain ⟨rfl, rfl⟩ := Prod.mk.inj (Option.some.inj h)
    refine ⟨by omega, ?_⟩
    rw [secondOfFour, if_neg (by omega), if_neg (by omega), tail]
  split at h
  · obtain ⟨rfl, rfl⟩ := Prod.mk.inj (Option.some.inj h)
    exact ⟨by omega, rfl⟩
  · cases h

theorem low_of_lead {b : UInt8} {share : Nat} {ranges : List Range}
    (h : lead b = some (share, ranges)) : ∀ r ∈ ranges, 0x80 ≤ r.low.toNat := by
  intro r hr
  rcases lead_cases h with ⟨_, _, rfl⟩ | ⟨_, _, rfl⟩ | ⟨_, rfl⟩ | ⟨_, rfl⟩
  · cases hr
  · rw [List.mem_singleton] at hr
    rw [hr]
    decide
  · rw [List.mem_cons, List.mem_singleton] at hr
    rcases hr with rfl | rfl
    · dsimp only [secondOfThree]
      split <;> decide
    · decide
  · rw [List.mem_cons, List.mem_cons, List.mem_singleton] at hr
    rcases hr with rfl | rfl | rfl
    · dsimp only [secondOfFour]
      split <;> decide
    · decide
    · decide

theorem codePoint_ge_of_lead {b : UInt8} {share : Nat} {ranges : List Range} {bs : Bytes}
    (hlead : lead b = some (share, ranges)) (hb : 0x80 ≤ b.toNat)
    (hfit : fitting ranges bs = ranges.length) :
    0x80 ≤ codePoint share (bs.take ranges.length) := by
  rcases lead_cases hlead with ⟨hshare, hsmall, rfl⟩ | ⟨_, hshare, rfl⟩ | ⟨_, rfl⟩ | ⟨_, rfl⟩
  · omega
  · obtain ⟨x, rest, rfl, _, _⟩ := fitting_cons_eq_length_iff.mp hfit
    simp only [List.length_cons, List.length_nil, List.take_succ_cons, List.take_zero,
      codePoint_cons, codePoint_nil]
    omega
  · obtain ⟨x, rest, rfl, hx, hrest⟩ := fitting_cons_eq_length_iff.mp hfit
    obtain ⟨y, rest, rfl, _, _⟩ := fitting_cons_eq_length_iff.mp hrest
    have hlow := (Range.contains_iff.mp hx).1
    simp only [List.length_cons, List.length_nil, List.take_succ_cons, List.take_zero,
      codePoint_cons, codePoint_nil]
    unfold secondOfThree at hlow
    split at hlow <;> simp only [UInt8.reduceToNat] at hlow <;> omega
  · obtain ⟨x, rest, rfl, hx, hrest⟩ := fitting_cons_eq_length_iff.mp hfit
    obtain ⟨y, rest, rfl, _, hrest⟩ := fitting_cons_eq_length_iff.mp hrest
    obtain ⟨z, rest, rfl, _, _⟩ := fitting_cons_eq_length_iff.mp hrest
    have hlow := (Range.contains_iff.mp hx).1
    simp only [List.length_cons, List.length_nil, List.take_succ_cons, List.take_zero,
      codePoint_cons, codePoint_nil]
    unfold secondOfFour at hlow
    split at hlow <;> simp only [UInt8.reduceToNat] at hlow <;> omega

theorem lead_of_ascii {b : UInt8} (hb : b.toNat < 0x80) : lead b = some (b.toNat, []) := by
  have h := lead_one hb
  rwa [UInt8.ofNat_toNat] at h

theorem count_take_fitting {a : UInt8} (ha : a.toNat < 0x80) {ranges : List Range}
    (hlow : ∀ r ∈ ranges, 0x80 ≤ r.low.toNat) (bs : Bytes) :
    (bs.take (fitting ranges bs)).count a = 0 := by
  induction ranges generalizing bs with
  | nil => simp [fitting]
  | cons r ranges ih =>
    cases bs with
    | nil => simp
    | cons b bs =>
      unfold fitting
      split
      · rename_i hb
        have hr := hlow r List.mem_cons_self
        have hge := (Range.contains_iff.mp hb).1
        have hne : b ≠ a := by
          rintro rfl
          omega
        rw [List.take_succ_cons, List.count_cons_of_ne hne]
        exact ih (fun r hr => hlow r (List.mem_cons_of_mem _ hr)) bs
      · rfl

theorem toNat_ofNat_eq_or (n : Nat) : (Char.ofNat n).toNat = n ∨ (Char.ofNat n).toNat = 0 := by
  unfold Char.ofNat
  by_cases hvalid : n.isValidChar
  · rw [dif_pos hvalid]
    exact .inl rfl
  · rw [dif_neg hvalid]
    exact .inr rfl

theorem toNat_ofNat_of_ascii {n : Nat} (hn : n < 0x80) : (Char.ofNat n).toNat = n := by
  unfold Char.ofNat
  rw [dif_pos (.inl (by omega) : n.isValidChar)]
  rfl

/-- A complete piece is read as an ASCII character only from that character's byte. -/
theorem eq_of_codePoint_eq_ascii {a b : UInt8} {share : Nat} {ranges : List Range} {bs : Bytes}
    (hpos : 0 < a.toNat) (ha : a.toNat < 0x80) (hlead : lead b = some (share, ranges))
    (hfit : fitting ranges bs = ranges.length)
    (heq : Char.ofNat (codePoint share (bs.take ranges.length)) = Char.ofNat a.toNat) : b = a := by
  have hval := congrArg Char.toNat heq
  rw [toNat_ofNat_of_ascii ha] at hval
  apply UInt8.toNat_inj.mp
  by_cases hb : b.toNat < 0x80
  · rw [lead_of_ascii hb] at hlead
    obtain ⟨rfl, rfl⟩ := Prod.mk.inj (Option.some.inj hlead)
    rw [List.length_nil, List.take_zero, codePoint_nil, toNat_ofNat_of_ascii hb] at hval
    exact hval
  · have hge := codePoint_ge_of_lead hlead (by omega) hfit
    rcases toNat_ofNat_eq_or (codePoint share (bs.take ranges.length)) with hpoint | hpoint <;>
      omega

/-- An ASCII character is read no more often than its byte occurs. -/
theorem count_decodeLenient_le {a : UInt8} (hpos : 0 < a.toNat) (ha : a.toNat < 0x80)
    (bytes : Bytes) :
    (decodeLenient bytes).toList.count (Char.ofNat a.toNat) ≤ bytes.count a := by
  have hmark : '\uFFFD' ≠ Char.ofNat a.toNat := by
    intro h
    have hval := congrArg Char.toNat h
    rw [toNat_ofNat_of_ascii ha, show '\uFFFD'.toNat = 0xFFFD from rfl] at hval
    omega
  rw [toList_decodeLenient]
  fun_induction pieces bytes with
  | case1 => exact Nat.le_refl _
  | case2 b bs _ ih =>
    rw [List.map_cons, Option.getD_none, List.count_cons_of_ne hmark]
    exact ih.trans List.count_le_count_cons
  | case3 b bs share ranges hlead n piece ih =>
    have hfront := count_take_fitting ha (low_of_lead hlead) bs
    have hcut : (bs.take n ++ bs.drop n).count a = (bs.drop n).count a := by
      rw [List.count_append, hfront, Nat.zero_add]
    rw [List.take_append_drop] at hcut
    rw [← hcut] at ih
    rw [List.map_cons, List.count_cons, List.count_cons]
    refine Nat.add_le_add ih ?_
    by_cases hpiece : piece.getD '\uFFFD' = Char.ofNat a.toNat
    · have hb : b = a := by
        unfold piece at hpiece
        split at hpiece
        · rename_i hfit
          rw [hfit] at hpiece
          exact eq_of_codePoint_eq_ascii hpos ha hlead hfit hpiece
        · exact absurd hpiece hmark
      simp [hb, hpiece]
    · simp [hpiece]

theorem count_utf8EncodeChar_le {a : UInt8} (ha : a.toNat < 0x80) (c : Char) :
    (String.utf8EncodeChar c).count a ≤ if c = Char.ofNat a.toNat then 1 else 0 := by
  have hback : Char.ofNat c.val.toNat = c := Char.ofNat_toNat c
  unfold String.utf8EncodeChar
  generalize c.val.toNat = v at hback
  dsimp only
  split
  · by_cases hbyte : UInt8.ofNat v = a
    · have hc : c = Char.ofNat a.toNat := by
        rw [← hback, ← hbyte, UInt8.toNat_ofNat', Nat.mod_eq_of_lt (by omega)]
      simp [hbyte, hc]
    · simp [hbyte]
  -- No byte of a longer form is an ASCII byte.
  split
  · rw [List.count_eq_zero.mpr]
    · exact Nat.zero_le _
    · simp only [List.mem_cons, List.not_mem_nil, or_false, ← UInt8.toNat_inj,
        UInt8.toNat_ofNat']
      omega
  split
  all_goals
    rw [List.count_eq_zero.mpr]
    · exact Nat.zero_le _
    · simp only [List.mem_cons, List.not_mem_nil, or_false, ← UInt8.toNat_inj,
        UInt8.toNat_ofNat']
      omega

theorem count_encode_le {a : UInt8} (ha : a.toNat < 0x80) (s : String) :
    (encode s).count a ≤ s.toList.count (Char.ofNat a.toNat) := by
  unfold encode
  induction s.toList with
  | nil => exact Nat.le_refl _
  | cons c cs ih =>
    have hc := count_utf8EncodeChar_le ha c
    rw [List.flatMap_cons, List.count_append, List.count_cons]
    simp only [beq_iff_eq]
    omega

/-! ### How far a lenient reading grows -/

theorem fitting_le_length (ranges : List Range) (bs : Bytes) : fitting ranges bs ≤ bs.length := by
  fun_induction fitting ranges bs with
  | case1 r ranges b bs _ ih =>
    rw [List.length_cons]
    omega
  | case2 => exact Nat.zero_le _
  | case3 => exact Nat.zero_le _

/-- A character of one byte is written in one byte; longer ones take at most four. -/
theorem length_utf8EncodeChar_codePoint_le {b : UInt8} {share : Nat} {ranges : List Range}
    (hlead : lead b = some (share, ranges)) (bs : Bytes) :
    (String.utf8EncodeChar (Char.ofNat (codePoint share (bs.take ranges.length)))).length ≤
      3 * (ranges.length + 1) := by
  have hfour := length_utf8EncodeChar_le (Char.ofNat (codePoint share (bs.take ranges.length)))
  rcases lead_cases hlead with ⟨_, hshare, rfl⟩ | ⟨_, _, rfl⟩ | ⟨_, rfl⟩ | ⟨_, rfl⟩
  · have hone : (Char.ofNat share).val.toNat ≤ 127 := by
      have hval : (Char.ofNat share).toNat = share := toNat_ofNat_of_ascii hshare
      change (Char.ofNat share).toNat ≤ 127
      omega
    rw [List.length_nil, List.take_zero, codePoint_nil, String.utf8EncodeChar]
    rw [if_pos hone]
    exact (by decide : 1 ≤ 3 * (0 + 1))
  all_goals
    simp only [List.length_cons, List.length_nil] at hfour ⊢
    omega

/-- A lenient reading is written in at most three times the bytes that were read. The mark for a
malformed piece takes three, and stands for one byte or more. -/
theorem length_encode_decodeLenient_le (bytes : Bytes) :
    (encode (decodeLenient bytes)).length ≤ 3 * bytes.length := by
  have hmark : (String.utf8EncodeChar '\uFFFD').length = 3 := by decide
  rw [encode, toList_decodeLenient]
  fun_induction pieces bytes with
  | case1 => exact Nat.le_refl _
  | case2 b bs _ ih =>
    rw [List.map_cons, Option.getD_none, List.flatMap_cons, List.length_append, List.length_cons,
      hmark]
    omega
  | case3 b bs share ranges hlead n piece ih =>
    have hfits : n ≤ bs.length := fitting_le_length ranges bs
    have hpiece : (String.utf8EncodeChar (piece.getD '\uFFFD')).length ≤ 3 * (n + 1) := by
      unfold piece
      split
      · rename_i hfit
        rw [Option.getD_some, hfit]
        exact length_utf8EncodeChar_codePoint_le hlead bs
      · rw [Option.getD_none, hmark]
        omega
    rw [List.length_drop] at ih
    rw [List.map_cons, List.flatMap_cons, List.length_append, List.length_cons]
    omega

end NatBehavior.Utf8
