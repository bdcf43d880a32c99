import NatBehavior.Proofs.Address.Characters
import NatBehavior.Proofs.Settings.Validation

/-! Which texts name a server. A text is divided at its last colon: behind it there has to be a port
other than zero and in front of it a host without characters that no host has. The texts of
endpoints are such texts, but for those with port zero. -/
namespace NatBehavior

section

variable {c : Char} {cs front back : List Char}

theorem splitLast?_append (h : c ∉ back) : splitLast? c (front ++ c :: back) = some (front, back) := by
  have hreverse : (front ++ c :: back).reverse = back.reverse ++ c :: front.reverse := by simp
  have hlast : (back.reverse ++ c :: front.reverse).takeWhile (· ≠ c) = back.reverse := by
    apply takeWhile_append_of_stop
    · intro d hd
      simpa using fun hdc : d = c => h (hdc ▸ List.mem_reverse.mp hd)
    · simp
  unfold splitLast?
  simp only [hreverse, hlast, List.drop_left, List.reverse_reverse]

theorem splitLast?_of_not_mem (h : c ∉ cs) : splitLast? c cs = none := by
  have hlast : cs.reverse.takeWhile (· ≠ c) = cs.reverse := by
    apply List.takeWhile_eq_self_iff.mpr
    intro d hd
    simpa using fun hdc : d = c => h (hdc ▸ List.mem_reverse.mp hd)
  unfold splitLast?
  simp only [hlast, List.drop_length]

/-- A text is divided at the last of a character, which is the one that none comes behind. -/
theorem splitLast?_eq_some_iff :
    splitLast? c cs = some (front, back) ↔ cs = front ++ c :: back ∧ c ∉ back := by
  constructor
  · intro h
    by_cases hc : c ∈ cs
    · obtain ⟨last, rest, hsplit, hlast⟩ := List.eq_append_cons_of_mem (List.mem_reverse.mpr hc)
      have hcs : cs = rest.reverse ++ c :: last.reverse := by
        rw [← List.reverse_reverse cs, hsplit]
        simp
      rw [hcs, splitLast?_append (by simpa using hlast)] at h
      cases h
      exact ⟨hcs, by simpa using hlast⟩
    · rw [splitLast?_of_not_mem hc] at h
      cases h
  · rintro ⟨rfl, hback⟩
    exact splitLast?_append hback

end

namespace Settings

/-- A host and a port, divided by a colon. -/
structure IsServer (server host port : List Char) : Prop where
  text : server = host ++ ':' :: port
  colon : ':' ∉ port
  /-- Digits, with or without a plus sign in front, of a value from one to the largest port. -/
  digits : ∃ digits, (port = digits ∨ port = '+' :: digits) ∧ digits ≠ [] ∧
    (∀ c ∈ digits, c.isDigit) ∧ 1 ≤ Numeral.value digits ∧ Numeral.value digits ≤ 65535
  nonempty : host ≠ []
  not_brackets : host ≠ ['[', ']']
  slash : '/' ∉ host
  backslash : '\\' ∉ host
  blank : ∀ c ∈ host, ¬ isBlank c

variable {server : String} {host port : List Char} {n : Nat}

theorem any_isBadHostChar_iff :
    host.any isBadHostChar = true ↔ '/' ∈ host ∨ '\\' ∈ host ∨ ∃ c ∈ host, isBlank c := by
  simp only [List.any_eq_true, isBadHostChar, Bool.or_eq_true, decide_eq_true_eq, or_assoc]
  constructor
  · rintro ⟨c, hc, rfl | rfl | hblank⟩
    · exact .inl hc
    · exact .inr (.inl hc)
    · exact .inr (.inr ⟨c, hc, hblank⟩)
  · rintro (hc | hc | ⟨c, hc, hblank⟩)
    · exact ⟨_, hc, .inl rfl⟩
    · exact ⟨_, hc, .inr (.inl rfl)⟩
    · exact ⟨c, hc, .inr (.inr hblank)⟩

/-- What is checked of a text that is divided, and has a port. -/
theorem checkServer_of_port (hsplit : splitLast? ':' server.toList = some (host, port))
    (hport : Numeral.readSigned? 65535 port = some n) :
    checkServer server = .ok () ↔
      n ≠ 0 ∧ host ≠ [] ∧ host ≠ ['[', ']'] ∧ host.any isBadHostChar = false := by
  simp only [checkServer, hsplit, hport]
  split_ifs with hzero hhost hchars
  · simp [hzero]
  · refine iff_of_false nofun fun h => ?_
    exact hhost.elim h.2.1 h.2.2.1
  · simp [hchars]
  · rw [not_or] at hhost
    simp [hzero, hhost, hchars]

theorem exists_port_of_checkServer (h : checkServer server = .ok ()) :
    ∃ host port n, splitLast? ':' server.toList = some (host, port) ∧
      Numeral.readSigned? 65535 port = some n := by
  unfold checkServer at h
  split at h
  · cases h
  · rename_i host port hsplit
    split at h
    · cases h
    · rename_i n hport
      exact ⟨host, port, n, hsplit, hport⟩

theorem checkServer_eq_ok_iff :
    checkServer server = .ok () ↔ ∃ host port, IsServer server.toList host port := by
  constructor
  · intro h
    obtain ⟨host, port, n, hsplit, hport⟩ := exists_port_of_checkServer h
    obtain ⟨hn, hhost, hbrackets, hchars⟩ := (checkServer_of_port hsplit hport).mp h
    obtain ⟨htext, hcolon⟩ := splitLast?_eq_some_iff.mp hsplit
    obtain ⟨digits, hsign, hread⟩ := Numeral.readSigned?_eq_some_iff.mp hport
    obtain ⟨hne, hdigits, rfl, hlimit⟩ := Numeral.read?_eq_some_iff.mp hread
    have hclean := mt any_isBadHostChar_iff.mpr (Bool.eq_false_iff.mp hchars)
    simp only [not_or, not_exists, not_and] at hclean
    exact ⟨host, port, htext, hcolon,
      ⟨digits, hsign, hne, hdigits, Nat.one_le_iff_ne_zero.mpr hn, hlimit⟩, hhost, hbrackets,
      hclean.1, hclean.2.1, hclean.2.2⟩
  · rintro ⟨host, port, h⟩
    obtain ⟨digits, hsign, hne, hdigits, hpos, hlimit⟩ := h.digits
    have hsplit := splitLast?_eq_some_iff.mpr ⟨h.text, h.colon⟩
    have hport := Numeral.readSigned?_eq_some_iff.mpr
      ⟨digits, hsign, Numeral.read?_eq_some_iff.mpr ⟨hne, hdigits, rfl, hlimit⟩⟩
    refine (checkServer_of_port hsplit hport).mpr
      ⟨Nat.one_le_iff_ne_zero.mp hpos, h.nonempty, h.not_brackets, ?_⟩
    refine Bool.eq_false_iff.mpr (mt any_isBadHostChar_iff.mp ?_)
    simp only [not_or, not_exists, not_and]
    exact ⟨h.slash, h.backslash, h.blank⟩

/-! ### Endpoints -/

theorem le_of_isHexDigit {c : Char} (h : Reader.isHexDigit c) : c ≤ 'f' := by
  unfold Reader.isHexDigit Reader.hexDigit? at h
  split_ifs at h with hdigit hlower hupper
  · have hnine : c ≤ '9' := UInt32.le_iff_toNat_le.mpr (Char.isDigit_iff_toNat.mp hdigit).2
    exact Char.le_trans hnine (by decide)
  · rw [Bool.and_eq_true, decide_eq_true_eq, decide_eq_true_eq] at hlower
    exact hlower.2
  · rw [Bool.and_eq_true, decide_eq_true_eq, decide_eq_true_eq] at hupper
    exact Char.le_trans hupper.2 (by decide)
  · cases h

theorem lt_of_isAddressChar {c : Char} (h : isAddressChar c) : c.toNat < 128 := by
  rw [isAddressChar, Bool.or_eq_true, List.contains_iff_mem] at h
  rcases h with hhex | hmark
  · have hle : c.toNat ≤ 'f'.toNat := UInt32.le_iff_toNat_le.mp (le_of_isHexDigit hhex)
    exact Nat.lt_of_le_of_lt hle (by decide)
  · have hmarks : ∀ d ∈ ['.', ':', '%', '[', ']'], d.toNat < 128 := by simp
    exact hmarks c hmark

/-- No character of an address is one that hosts must not have. -/
theorem isBadHostChar_eq_false {c : Char} (h : isAddressChar c) : isBadHostChar c = false := by
  have hall : ∀ n < 128, isAddressChar (Char.ofNat n) → isBadHostChar (Char.ofNat n) = false := by
    decide
  rw [← Char.ofNat_toNat c] at h ⊢
  exact hall c.toNat (Char.ofNat_toNat c ▸ lt_of_isAddressChar h) h

theorem checkServer_of_ofText? {endpoint : Endpoint}
    (h : Endpoint.ofText? server.toList = some endpoint) :
    checkServer server = .ok () ↔ endpoint.port ≠ 0 := by
  obtain ⟨host, digits, hdivides⟩ := Endpoint.exists_divides_of_ofText? h
  have hdigits := (Numeral.read?_eq_some_iff.mp hdivides.port).2.1
  have hsplit : splitLast? ':' server.toList = some (host, digits) :=
    splitLast?_eq_some_iff.mpr ⟨hdivides.text, fun hc => absurd (hdigits _ hc) (by decide)⟩
  have hport := Numeral.readSigned?_eq_some_iff.mpr ⟨digits, .inl rfl, hdivides.port⟩
  have hchars : host.any isBadHostChar = false :=
    List.any_eq_false.mpr fun c hc => by simp [isBadHostChar_eq_false (hdivides.chars c hc)]
  rw [checkServer_of_port hsplit hport]
  simp [hdivides.nonempty, hdivides.not_brackets, hchars, ← UInt16.toNat_inj]

/-- A server is accepted exactly where its text is a host and a port. Of the texts of endpoints
these are the ones whose port is not zero, so no endpoint with port zero is left in settings that
pass validation. -/
theorem accepted_servers (server : String) :
    (checkServer server = .ok () ↔ ∃ host port, IsServer server.toList host port) ∧
    ∀ endpoint, Endpoint.ofText? server.toList = some endpoint →
      (checkServer server = .ok () ↔ endpoint.port ≠ 0) ∧
      ∀ s : Settings, s.server = server → s.validate = .ok () → endpoint.port ≠ 0 := by
  refine ⟨checkServer_eq_ok_iff, fun endpoint h => ⟨checkServer_of_ofText? h, ?_⟩⟩
  rintro s rfl hvalid
  exact (checkServer_of_ofText? h).mp (validate_eq_ok_iff.mp hvalid).server

/-- An address of version 6 with a scope, its port once with leading zeros and once zero. -/
theorem accepted_servers_scoped :
    let ip : Ipv6 := ⟨[0xfe80, 0, 0, 0, 0, 0, 0, 1], rfl⟩
    let s : Settings := { server := "[fe80::1%7]:0003478" }
    Endpoint.ofText? s.server.toList = some (.v6 ip 3478 0 7) ∧ checkServer s.server = .ok () ∧
    s.validate = .ok () ∧ (Endpoint.v6 ip 3478 0 7).port ≠ 0 ∧
    Endpoint.ofText? "[fe80::1%7]:0".toList = some (.v6 ip 0 0 7) ∧
    checkServer "[fe80::1%7]:0" ≠ .ok () := by
  intro ip s
  have hport : Endpoint.ofText? s.server.toList = some (.v6 ip 3478 0 7) := by decide +kernel
  have hvalid : s.validate = .ok () := by decide +kernel
  have hzero : Endpoint.ofText? "[fe80::1%7]:0".toList = some (.v6 ip 0 0 7) := by decide +kernel
  obtain ⟨haccepted, hnot⟩ := (accepted_servers s.server).2 _ hport
  have hne : (Endpoint.v6 ip 3478 0 7).port ≠ 0 := hnot s rfl hvalid
  exact ⟨hport, haccepted.mpr hne, hvalid, hne, hzero,
    fun hok => ((accepted_servers _).2 _ hzero).1.mp hok rfl⟩

end Settings

end NatBehavior
