import Mathlib.Data.Nat.Digits.Defs
import NatBehavior.Host
import NatBehavior.Proofs.Text.Reader

/-! The text of a host is read back as that host. A reader of groups takes as many as there are and
tries dotted decimal on the way, so what matters of the text behind a group is that no group goes on
there and that it has no dot. -/
namespace NatBehavior

/-! ### Version 4 -/

namespace Ipv4

variable {rest : List Char}

theorem octet_toDigits (b : UInt8) (hrest : ∀ c ∈ rest.head?, ¬ c.isDigit) :
    octet (Nat.toDigits 10 b.toNat ++ rest) = some (b, rest) := by
  have hb := b.toNat_lt
  have hlength : (Nat.toDigits 10 b.toNat).length ≤ 3 :=
    Nat.toDigits_length 10 b.toNat 3 (by decide) (by omega)
  have hzero : (Nat.toDigits 10 b.toNat).length = 1 ∨
      (Nat.toDigits 10 b.toNat).head? ≠ some '0' := by
    by_cases h : (Nat.toDigits 10 b.toNat).head? = some '0'
    · rw [Numeral.eq_zero_of_head?_toDigits h]
      exact .inl rfl
    · exact .inr h
  rw [octet, takeWhile_append_of_stop (fun _ => Numeral.isDigit_of_mem_toDigits) hrest,
    Reader.number_toDigits (by omega) hrest]
  simp only [guard, if_pos (And.intro hlength hzero)]
  exact congrArg (fun b => some (b, rest)) (UInt8.ofNat_toNat)

theorem reader_text (ip : Ipv4) (hrest : ∀ c ∈ rest.head?, ¬ c.isDigit) :
    reader (ip.text ++ rest) = some (ip, rest) := by
  have hdot : ∀ cs : List Char, ∀ c ∈ ('.' :: cs).head?, ¬ c.isDigit := by
    rintro cs c hc
    obtain rfl := Option.some.inj hc
    decide
  simp only [reader, text, List.append_assoc, List.cons_append]
  simp only [octet_toDigits _ (hdot _), octet_toDigits _ hrest, Reader.char_self,
    Option.bind_eq_bind, Option.bind_some]
  rfl

theorem suffix_of_octet {cs : List Char} {b : UInt8} (h : octet cs = some (b, rest)) :
    rest <:+ cs := by
  unfold octet at h
  obtain ⟨-, -, h⟩ := Option.bind_eq_some_iff.mp h
  obtain ⟨⟨n, rest'⟩, hnumber, h⟩ := Option.bind_eq_some_iff.mp h
  obtain ⟨m, -, hrest⟩ := Option.bind_eq_some_iff.mp hnumber
  cases hrest
  cases h
  exact List.dropWhile_suffix Char.isDigit

/-- Behind the first of its numbers an address has a dot. -/
theorem reader_eq_none {cs : List Char} (h : '.' ∉ cs) : reader cs = none := by
  unfold reader
  cases hfirst : octet cs with
  | none => rfl
  | some first =>
    obtain ⟨a, rest⟩ := first
    have hdot : Reader.char '.' rest = none := by
      refine Reader.char_eq_none fun c hc => ?_
      rintro rfl
      exact h ((suffix_of_octet hfirst).subset hc)
    simp only [Option.bind_eq_bind, Option.bind_some, hdot, Option.bind_none]

end Ipv4

/-! ### Version 6 -/

namespace Ipv6

variable {groups gs : List UInt16} {rest : List Char} {room : Nat}

theorem group_toDigits (g : UInt16) (hrest : ∀ c ∈ rest.head?, ¬ Reader.isHexDigit c) :
    group (Nat.toDigits 16 g.toNat ++ rest) = some (g, rest) := by
  have hg := g.toNat_lt
  have hlength : (Nat.toDigits 16 g.toNat).length ≤ 4 :=
    Nat.toDigits_length 16 g.toNat 4 (by decide) (by omega)
  have hpos : 1 ≤ (Nat.toDigits 16 g.toNat).length :=
    List.length_pos_iff.mpr Nat.toDigits_ne_nil
  have hall : ∀ c ∈ Nat.toDigits 16 g.toNat, Reader.isHexDigit c :=
    fun _ => Reader.isHexDigit_of_mem_toDigits
  rw [group, takeWhile_append_of_stop hall hrest, dropWhile_append_of_stop hall hrest,
    Reader.hexValue_toDigits]
  simp only [guard, if_pos (And.intro hpos hlength)]
  exact congrArg (fun g => some (g, rest)) (UInt16.ofNat_toNat)

theorem group_eq_none (hrest : ∀ c ∈ rest.head?, ¬ Reader.isHexDigit c) : group rest = none := by
  have hempty : ([] ++ rest).takeWhile Reader.isHexDigit = [] :=
    takeWhile_append_of_stop (fun _ h => nomatch h) hrest
  rw [List.nil_append] at hempty
  rw [group, hempty]
  rfl

/-- The groups behind another one. -/
def tailText (groups : List UInt16) : List Char :=
  groups.flatMap fun g => ':' :: Nat.toDigits 16 g.toNat

theorem joinGroups_cons (g : UInt16) (groups : List UInt16) :
    joinGroups (g :: groups) = Nat.toDigits 16 g.toNat ++ tailText groups := by
  rw [joinGroups, List.map_cons, intercalate_cons, List.flatMap_map, tailText]

theorem dot_not_mem_toDigits (n : Nat) : '.' ∉ Nat.toDigits 16 n :=
  fun h => absurd (Reader.isHexDigit_of_mem_toDigits h) (by decide)

theorem dot_not_mem_tailText (groups : List UInt16) : '.' ∉ tailText groups := by
  intro h
  obtain ⟨g, -, hg⟩ := List.mem_flatMap.mp h
  rcases List.mem_cons.mp hg with hcolon | hdigit
  · exact absurd hcolon (by decide)
  · exact dot_not_mem_toDigits _ hdigit

theorem dot_not_mem_joinGroups (groups : List UInt16) : '.' ∉ joinGroups groups := by
  cases groups with
  | nil => exact List.not_mem_nil
  | cons g groups =>
    simpa [joinGroups_cons] using ⟨dot_not_mem_toDigits g.toNat, dot_not_mem_tailText groups⟩

/-- What may stand behind groups: nothing that goes on with them. -/
structure Ends (rest : List Char) : Prop where
  dotless : '.' ∉ rest
  closed : ∀ c ∈ rest.head?, ¬ Reader.isHexDigit c
  last : (separator false rest).bind (fun read => group read.2) = none

theorem ends_bracket {cs : List Char} (h : '.' ∉ cs) : Ends (']' :: cs) where
  dotless := by simpa using h
  closed := by simp; decide
  last := rfl

theorem ends_gap {cs : List Char} (h : '.' ∉ cs) : Ends (':' :: ':' :: cs) where
  dotless := by simpa using h
  closed := by simp; decide
  last := by
    rw [separator]
    simp only [Bool.false_eq_true, if_false, Reader.char_self, Option.bind_some]
    exact group_eq_none (by simp; decide)

section

variable {isFirst : Bool} {cs cs' : List Char}

theorem separator_dotless {read : Unit × List Char} (h : separator isFirst cs = some read)
    (hdot : '.' ∉ cs) : '.' ∉ read.2 := by
  unfold separator at h
  split at h
  · cases h
    exact hdot
  · cases cs with
    | nil => cases h
    | cons c cs =>
      rw [Reader.char] at h
      split at h
      · cases h
        exact fun hmem => hdot (List.mem_cons_of_mem c hmem)
      · cases h

theorem dotted_eq_none (room : Nat) (hdot : '.' ∉ cs) :
    (if room = 0 then none else (separator isFirst cs).bind fun read => Ipv4.reader read.2) =
      none := by
  split
  · rfl
  · refine Option.bind_eq_none_iff.mpr fun read hread => ?_
    exact Ipv4.reader_eq_none (separator_dotless hread hdot)

theorem groupRun_of_none (hdot : '.' ∉ cs)
    (h : (separator isFirst cs).bind (fun read => group read.2) = none) :
    groupRun room isFirst cs = (([], false), cs) := by
  cases room with
  | zero => rfl
  | succ room => simp only [groupRun, Option.bind_eq_bind, dotted_eq_none room hdot, h]

theorem groupRun_of_some {g : UInt16} (hdot : '.' ∉ cs)
    (h : (separator isFirst cs).bind (fun read => group read.2) = some (g, rest))
    (hrest : groupRun room false rest = ((gs, false), cs')) :
    groupRun (room + 1) isFirst cs = ((g :: gs, false), cs') := by
  simp only [groupRun, Option.bind_eq_bind, dotted_eq_none room hdot, h, hrest]

end

theorem closed_tailText (hrest : Ends rest) (groups : List UInt16) :
    ∀ c ∈ (tailText groups ++ rest).head?, ¬ Reader.isHexDigit c := by
  cases groups with
  | nil => exact hrest.closed
  | cons g groups =>
    intro c hc
    obtain rfl := Option.some.inj hc
    decide

theorem groupRun_tailText (hrest : Ends rest) (hroom : groups.length ≤ room) :
    groupRun room false (tailText groups ++ rest) = ((groups, false), rest) := by
  have hdot (gs : List UInt16) : '.' ∉ tailText gs ++ rest := by
    simpa using ⟨dot_not_mem_tailText gs, hrest.dotless⟩
  induction groups generalizing room with
  | nil => exact groupRun_of_none hrest.dotless hrest.last
  | cons g groups ih =>
    cases room with
    | zero => cases hroom
    | succ room =>
      refine groupRun_of_some (hdot _) ?_ (ih (Nat.le_of_succ_le_succ hroom))
      have htext : tailText (g :: groups) ++ rest =
          ':' :: (Nat.toDigits 16 g.toNat ++ (tailText groups ++ rest)) := by
        simp [tailText]
      rw [htext, separator]
      simp only [Bool.false_eq_true, if_false, Reader.char_self, Option.bind_some]
      exact group_toDigits g (closed_tailText hrest groups)

/-- Groups are read back, as many as there is room for. -/
theorem groupRun_joinGroups (hrest : Ends rest) (hroom : groups.length ≤ room) :
    groupRun room true (joinGroups groups ++ rest) = ((groups, false), rest) := by
  have hdot : '.' ∉ joinGroups groups ++ rest := by
    simpa using ⟨dot_not_mem_joinGroups groups, hrest.dotless⟩
  cases groups with
  | nil => exact groupRun_of_none hdot (group_eq_none hrest.closed)
  | cons g groups =>
    cases room with
    | zero => cases hroom
    | succ room =>
      rw [joinGroups_cons, List.append_assoc] at hdot ⊢
      exact groupRun_of_some hdot (group_toDigits g (closed_tailText hrest groups))
        (groupRun_tailText hrest (Nat.le_of_succ_le_succ hroom))

theorem take_zeroRun {n : Nat} (h : n ≤ zeroRun groups) : groups.take n = List.replicate n 0 := by
  induction groups generalizing n with
  | nil =>
    obtain rfl := Nat.le_zero.mp h
    rfl
  | cons g groups ih =>
    cases n with
    | zero => rfl
    | succ n =>
      rw [zeroRun, List.takeWhile_cons] at h
      split at h
      · rename_i hzero
        rw [List.take_succ_cons, ih (Nat.le_of_succ_le_succ h), beq_iff_eq.mp hzero]
        rfl
      · cases h

/-- Where the longest run is said to start, there are that many zeros. -/
theorem longestZeroRun_le (groups : List UInt16) :
    (longestZeroRun groups).2 ≤ zeroRun (groups.drop (longestZeroRun groups).1) := by
  unfold longestZeroRun
  refine List.foldlRecOn
    (motive := fun best : Nat × Nat => best.2 ≤ zeroRun (groups.drop best.1)) _ _
    (Nat.zero_le _) ?_
  intro best hbest start _
  dsimp only
  split
  · exact Nat.le_refl _
  · exact hbest

theorem reader_joinGroups (ip : Ipv6) (hrest : Ends rest) :
    reader (joinGroups ip.groups ++ rest) = some (ip, rest) := by
  rw [reader, groupRun_joinGroups hrest ip.length_groups.le]
  exact dif_pos ip.length_groups

/-- Two colons stand for the groups that are missing. -/
theorem reader_gap {ip : Ipv6} {front back : List UInt16} {n : Nat} (hrest : Ends rest)
    (hgroups : ip.groups = front ++ List.replicate n 0 ++ back) (hn : 0 < n) :
    reader (joinGroups front ++ ':' :: ':' :: (joinGroups back ++ rest)) = some (ip, rest) := by
  have hlength := ip.length_groups
  rw [hgroups, List.length_append, List.length_append, List.length_replicate] at hlength
  have hgap : Ends (':' :: ':' :: (joinGroups back ++ rest)) :=
    ends_gap (by simpa using ⟨dot_not_mem_joinGroups back, hrest.dotless⟩)
  have hmissing : 8 - front.length - back.length = n := by omega
  rw [reader, groupRun_joinGroups hgap (by omega)]
  dsimp only
  rw [dif_neg (by omega)]
  simp only [Bool.false_eq_true, if_false, Reader.char_self, Option.bind_eq_bind, Option.bind_some]
  rw [groupRun_joinGroups hrest (by omega)]
  simp only [hmissing, ← hgroups, ofGroups?_groups, Option.bind_some]
  rfl

theorem reader_text {ip : Ipv6} (hplain : ip.mapped? = none) (hrest : Ends rest) :
    reader (ip.text ++ rest) = some (ip, rest) := by
  have hzeros := longestZeroRun_le ip.groups
  rw [text, hplain]
  dsimp only
  generalize longestZeroRun ip.groups = run at hzeros ⊢
  obtain ⟨start, n⟩ := run
  dsimp only at hzeros ⊢
  split
  · exact reader_joinGroups ip hrest
  · have hsplit : ip.groups =
        ip.groups.take start ++ List.replicate n 0 ++ ip.groups.drop (start + n) := by
      rw [← take_zeroRun hzeros, ← List.drop_drop, List.append_assoc, List.take_append_drop,
        List.take_append_drop]
    rw [List.append_assoc, List.cons_append, List.cons_append]
    exact reader_gap hrest hsplit (by omega)

end Ipv6

/-! ### Endpoints and hosts -/

namespace Endpoint

theorem portReader_text (port : UInt16) :
    portReader (':' :: Nat.toDigits 10 port.toNat) = some (port, []) := by
  have hport := port.toNat_lt
  have hread : Reader.number 65535 (Nat.toDigits 10 port.toNat ++ []) = some (port.toNat, []) :=
    Reader.number_toDigits (by omega) (fun _ h => nomatch h)
  rw [List.append_nil] at hread
  simp only [portReader, Reader.char_self, Option.bind_eq_bind, Option.bind_some, hread]
  exact congrArg (fun port => some (port, [])) UInt16.ofNat_toNat

theorem dot_not_mem_portText (port : UInt16) : '.' ∉ ':' :: Nat.toDigits 10 port.toNat := by
  intro h
  rcases List.mem_cons.mp h with hcolon | hdigit
  · exact absurd hcolon (by decide)
  · exact absurd (Numeral.isDigit_of_mem_toDigits hdigit) (by decide)

theorem ofText?_text_v4 (ip : Ipv4) (port : UInt16) :
    ofText? (text (.v4 ip port)) = some (.v4 ip port) := by
  have hread : ipv4Reader (text (.v4 ip port)) = some (.v4 ip port, []) := by
    rw [ipv4Reader, text, Ipv4.reader_text ip (by simp)]
    simp only [Option.bind_eq_bind, Option.bind_some, portReader_text]
    rfl
  rw [ofText?, Reader.all, hread]
  rfl

theorem ofText?_text_v6 {ip : Ipv6} (hplain : ip.mapped? = none) (port : UInt16) :
    ofText? (text (.v6 ip port 0 0)) = some (.v6 ip port 0 0) := by
  have htext : text (.v6 ip port 0 0) =
      '[' :: (ip.text ++ ']' :: ':' :: Nat.toDigits 10 port.toNat) := by
    simp [text, scopeText]
  have hfour : ipv4Reader (text (.v6 ip port 0 0)) = none := rfl
  have hscope : scopeReader (']' :: ':' :: Nat.toDigits 10 port.toNat) =
      (0, ']' :: ':' :: Nat.toDigits 10 port.toNat) := rfl
  have hread : ipv6Reader (text (.v6 ip port 0 0)) = some (.v6 ip port 0 0, []) := by
    rw [htext, ipv6Reader]
    simp only [Reader.char_self, Option.bind_eq_bind, Option.bind_some,
      Ipv6.reader_text hplain (Ipv6.ends_bracket (dot_not_mem_portText port)), hscope,
      portReader_text]
    rfl
  rw [ofText?, Reader.all, hfour, Reader.all, hread]
  rfl

end Endpoint

namespace Host

/-- A host is read back from its text. -/
theorem ofText?_text (host : Host) : ofText? host.text = some host := by
  have hread : Endpoint.ofText? host.toEndpoint.text = some host.toEndpoint := by
    obtain ⟨ip, port, hcanonical⟩ := host
    cases ip with
    | v4 ip => exact Endpoint.ofText?_text_v4 ip port
    | v6 ip =>
      cases hmapped : ip.mapped? with
      | none => exact Endpoint.ofText?_text_v6 hmapped port
      | some mapped =>
        rw [Ip.canonical, hmapped] at hcanonical
        cases hcanonical
  rw [ofText?, text, hread, Option.map_some, ofEndpoint_toEndpoint]

end Host

end NatBehavior
