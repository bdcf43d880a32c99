import NatBehavior.Proofs.Address.Text

/-! What endpoints are written with. In front of the last colon of an endpoint's text there is an
address, made of few kinds of characters, and behind it there are the digits of the port. -/
namespace NatBehavior

variable {c : Char} {cs rest : List Char} {limit n : Nat}

/-! ### Characters of addresses -/

/-- Hexadecimal digits, and what stands between and around the numbers of an address. -/
def isAddressChar (c : Char) : Bool :=
  Reader.isHexDigit c || ['.', ':', '%', '[', ']'].contains c

/-- In front of the rest there are only characters of addresses. -/
def Spans (cs rest : List Char) : Prop :=
  ∃ front, cs = front ++ rest ∧ ∀ c ∈ front, isAddressChar c

namespace Spans

variable {cs' : List Char}

theorem refl (cs : List Char) : Spans cs cs := ⟨[], rfl, nofun⟩

theorem trans (h : Spans cs cs') (h' : Spans cs' rest) : Spans cs rest := by
  obtain ⟨front, rfl, hfront⟩ := h
  obtain ⟨back, rfl, hback⟩ := h'
  exact ⟨front ++ back, (List.append_assoc ..).symm, List.forall_mem_append.mpr ⟨hfront, hback⟩⟩

theorem of_char {u : Unit} (hc : isAddressChar c) (h : Reader.char c cs = some (u, rest)) :
    Spans cs rest :=
  ⟨[c], Reader.of_char h, by simpa using hc⟩

theorem takeWhile_isHexDigit (cs : List Char) : Spans cs (cs.dropWhile Reader.isHexDigit) := by
  refine ⟨cs.takeWhile Reader.isHexDigit, List.takeWhile_append_dropWhile.symm, fun c hc => ?_⟩
  have hhex : Reader.isHexDigit c := List.mem_takeWhile_imp hc
  simp [isAddressChar, hhex]

theorem of_number (h : Reader.number limit cs = some (n, rest)) : Spans cs rest := by
  obtain ⟨digits, rfl, hread⟩ := Reader.of_number h
  refine ⟨digits, rfl, fun c hc => ?_⟩
  have hdigit := (Numeral.read?_eq_some_iff.mp hread).2.1 c hc
  simp [isAddressChar, Reader.isHexDigit, Reader.hexDigit?, hdigit]

end Spans

theorem Ipv4.spans_octet {b : UInt8} (h : octet cs = some (b, rest)) : Spans cs rest := by
  unfold octet at h
  obtain ⟨-, -, h⟩ := Option.bind_eq_some_iff.mp h
  obtain ⟨⟨n, rest'⟩, hnumber, h⟩ := Option.bind_eq_some_iff.mp h
  cases h
  exact .of_number hnumber

theorem Ipv4.spans_reader {ip : Ipv4} (h : reader cs = some (ip, rest)) : Spans cs rest := by
  have hdot : isAddressChar '.' := by decide
  unfold reader at h
  obtain ⟨⟨a, cs₁⟩, ha, h⟩ := Option.bind_eq_some_iff.mp h
  obtain ⟨⟨_, cs₂⟩, hdot₁, h⟩ := Option.bind_eq_some_iff.mp h
  obtain ⟨⟨b, cs₃⟩, hb, h⟩ := Option.bind_eq_some_iff.mp h
  obtain ⟨⟨_, cs₄⟩, hdot₂, h⟩ := Option.bind_eq_some_iff.mp h
  obtain ⟨⟨c, cs₅⟩, hc, h⟩ := Option.bind_eq_some_iff.mp h
  obtain ⟨⟨_, cs₆⟩, hdot₃, h⟩ := Option.bind_eq_some_iff.mp h
  obtain ⟨⟨d, cs₇⟩, hd, h⟩ := Option.bind_eq_some_iff.mp h
  cases h
  exact (spans_octet ha).trans <| (Spans.of_char hdot hdot₁).trans <| (spans_octet hb).trans <|
    (Spans.of_char hdot hdot₂).trans <| (spans_octet hc).trans <|
    (Spans.of_char hdot hdot₃).trans <| spans_octet hd

namespace Ipv6

theorem spans_separator {isFirst : Bool} {u : Unit} (h : separator isFirst cs = some (u, rest)) :
    Spans cs rest := by
  unfold separator at h
  split at h
  · cases h
    exact .refl cs
  · exact .of_char (by decide) h

theorem spans_group {g : UInt16} (h : group cs = some (g, rest)) : Spans cs rest := by
  unfold group at h
  obtain ⟨-, -, h⟩ := Option.bind_eq_some_iff.mp h
  cases h
  exact .takeWhile_isHexDigit cs

theorem spans_groupRun {room : Nat} {isFirst : Bool} {run : List UInt16 × Bool}
    (h : groupRun room isFirst cs = (run, rest)) : Spans cs rest := by
  induction room generalizing isFirst cs run with
  | zero =>
    cases h
    exact .refl _
  | succ room ih =>
    rw [groupRun] at h
    split at h
    · rename_i ip rest' hdotted
      cases h
      split at hdotted
      · cases hdotted
      · obtain ⟨⟨_, _⟩, hseparator, hip⟩ := Option.bind_eq_some_iff.mp hdotted
        exact (spans_separator hseparator).trans (Ipv4.spans_reader hip)
    · dsimp only at h
      split at h
      · cases h
        exact .refl _
      · rename_i g rest' hnext
        obtain ⟨⟨_, _⟩, hseparator, hgroup⟩ := Option.bind_eq_some_iff.mp hnext
        cases h
        exact (spans_separator hseparator).trans ((spans_group hgroup).trans (ih rfl))

theorem spans_reader {ip : Ipv6} (h : reader cs = some (ip, rest)) : Spans cs rest := by
  have hcolon : isAddressChar ':' := by decide
  unfold reader at h
  rcases hfront : groupRun 8 true cs with ⟨⟨front, isDotted⟩, cs₁⟩
  rw [hfront] at h
  dsimp only at h
  have hspan := spans_groupRun hfront
  split at h
  · cases h
    exact hspan
  · split at h
    · cases h
    · obtain ⟨⟨_, cs₂⟩, hcolon₁, h⟩ := Option.bind_eq_some_iff.mp h
      obtain ⟨⟨_, cs₃⟩, hcolon₂, h⟩ := Option.bind_eq_some_iff.mp h
      obtain ⟨ip', -, h⟩ := Option.bind_eq_some_iff.mp h
      cases h
      exact hspan.trans <| (Spans.of_char hcolon hcolon₁).trans <|
        (Spans.of_char hcolon hcolon₂).trans <| spans_groupRun rfl

end Ipv6

namespace Endpoint

variable {endpoint : Endpoint}

theorem spans_scopeReader (cs : List Char) : Spans cs (scopeReader cs).2 := by
  unfold scopeReader
  cases hpercent : Reader.char '%' cs with
  | none => exact .refl cs
  | some read =>
    obtain ⟨_, cs₁⟩ := read
    simp only [Option.bind_eq_bind, Option.bind_some]
    cases hnumber : Reader.number 4294967295 cs₁ with
    | none => exact .refl cs
    | some read => exact (Spans.of_char (by decide) hpercent).trans (.of_number hnumber)

theorem of_portReader {port : UInt16} (h : portReader cs = some (port, [])) :
    ∃ digits, cs = ':' :: digits ∧ Numeral.read? 65535 digits = some port.toNat := by
  obtain ⟨⟨_, cs₁⟩, hcolon, h⟩ := Option.bind_eq_some_iff.mp h
  obtain ⟨⟨n, cs₂⟩, hnumber, h⟩ := Option.bind_eq_some_iff.mp h
  cases h
  obtain ⟨digits, rfl, hread⟩ := Reader.of_number hnumber
  have hlimit := (Numeral.read?_eq_some_iff.mp hread).2.2.2
  have hn : n % 65536 = n := Nat.mod_eq_of_lt (Nat.lt_succ_of_le hlimit)
  rw [List.append_nil] at hcolon
  exact ⟨digits, Reader.of_char hcolon, hread.trans (congrArg some hn.symm)⟩

/-- An address in front of the last colon, and the digits of the port behind it. -/
structure Divides (cs host digits : List Char) (port : UInt16) : Prop where
  text : cs = host ++ ':' :: digits
  chars : ∀ c ∈ host, isAddressChar c
  nonempty : host ≠ []
  not_brackets : host ≠ ['[', ']']
  port : Numeral.read? 65535 digits = some port.toNat

theorem divides_v4 (h : ipv4Reader cs = some (endpoint, [])) :
    ∃ host digits, Divides cs host digits endpoint.port := by
  obtain ⟨⟨ip, cs₁⟩, hip, h⟩ := Option.bind_eq_some_iff.mp h
  obtain ⟨⟨port, cs₂⟩, hport, h⟩ := Option.bind_eq_some_iff.mp h
  cases h
  obtain ⟨digits, rfl, hread⟩ := of_portReader hport
  obtain ⟨host, rfl, hchars⟩ := Ipv4.spans_reader hip
  refine ⟨host, digits, rfl, hchars, ?_, ?_, hread⟩
  · rintro rfl
    cases hip
  · rintro rfl
    cases hip

theorem divides_v6 (h : ipv6Reader cs = some (endpoint, [])) :
    ∃ host digits, Divides cs host digits endpoint.port := by
  obtain ⟨⟨_, cs₁⟩, hopen, h⟩ := Option.bind_eq_some_iff.mp h
  obtain ⟨⟨ip, cs₂⟩, hip, h⟩ := Option.bind_eq_some_iff.mp h
  obtain ⟨⟨_, cs₄⟩, hclose, h⟩ := Option.bind_eq_some_iff.mp h
  obtain ⟨⟨port, cs₅⟩, hport, h⟩ := Option.bind_eq_some_iff.mp h
  cases h
  obtain ⟨digits, rfl, hread⟩ := of_portReader hport
  have hspan : Spans cs (':' :: digits) :=
    (Spans.of_char (by decide) hopen).trans <| (Ipv6.spans_reader hip).trans <|
      (spans_scopeReader cs₂).trans <| Spans.of_char (by decide) hclose
  obtain ⟨host, rfl, hchars⟩ := hspan
  have htext := Reader.of_char hopen
  refine ⟨host, digits, rfl, hchars, ?_, ?_, hread⟩
  · rintro rfl
    cases htext
  · rintro rfl
    cases htext
    cases hip

/-- The text of an endpoint is divided at its last colon. -/
theorem exists_divides_of_ofText? (h : ofText? cs = some endpoint) :
    ∃ host digits, Divides cs host digits endpoint.port := by
  unfold ofText? at h
  cases hv4 : Reader.all ipv4Reader cs with
  | some read =>
    rw [hv4] at h
    cases h
    exact divides_v4 (Reader.of_all hv4)
  | none =>
    rw [hv4] at h
    exact divides_v6 (Reader.of_all h)

end Endpoint

end NatBehavior
