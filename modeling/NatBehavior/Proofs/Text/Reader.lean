import Mathlib.Data.List.Basic
import Mathlib.Data.List.TakeWhile
import NatBehavior.Text.Reader

/-! Texts that are made of parts: where a run of characters ends, items with separators between
them, and numerals, which are read back from their digits whatever comes behind that is no digit.
What a reader accepts is what it has read, with the rest behind it. -/
namespace NatBehavior

theorem intercalate_cons {α : Type} (separator : α) (item : List α) (items : List (List α)) :
    [separator].intercalate (item :: items) = item ++ items.flatMap (separator :: ·) := by
  induction items generalizing item with
  | nil => simp
  | cons next items ih =>
    rw [List.intercalate_cons_cons, ih, List.append_assoc]
    rfl

theorem length_le_length_flatMap {α β : Type} {f : α → List β} (hf : ∀ x, f x ≠ []) (l : List α) :
    l.length ≤ (l.flatMap f).length := by
  induction l with
  | nil => exact Nat.le_refl 0
  | cons x l ih =>
    have hpos : 0 < (f x).length := List.length_pos_iff.mpr (hf x)
    rw [List.flatMap_cons, List.length_append, List.length_cons]
    omega

variable {p : Char → Bool} {c : Char} {cs front rest : List Char} {limit n : Nat}

theorem takeWhile_append_of_stop (hfront : ∀ c ∈ front, p c) (hrest : ∀ c ∈ rest.head?, ¬ p c) :
    (front ++ rest).takeWhile p = front := by
  rw [List.takeWhile_append_of_pos hfront]
  cases rest with
  | nil => exact List.append_nil front
  | cons c rest => rw [List.takeWhile_cons_of_neg (hrest c rfl), List.append_nil]

theorem dropWhile_append_of_stop (hfront : ∀ c ∈ front, p c) (hrest : ∀ c ∈ rest.head?, ¬ p c) :
    (front ++ rest).dropWhile p = rest := by
  rw [List.dropWhile_append_of_pos hfront]
  cases rest with
  | nil => rfl
  | cons c rest => exact List.dropWhile_cons_of_neg (hrest c rfl)

/-! ### Decimal numerals -/

namespace Numeral

theorem isDigit_of_mem_toDigits {c : Char} (h : c ∈ Nat.toDigits 10 n) : c.isDigit :=
  Nat.isDigit_of_mem_toDigits (by decide) (by decide) h

theorem eq_zero_of_head?_toDigits (h : (Nat.toDigits 10 n).head? = some '0') : n = 0 := by
  induction n using Nat.strongRecOn with
  | ind n ih =>
    rw [Nat.toDigits_eq_if (by decide)] at h
    split at h
    · rename_i hn
      have hall : ∀ n < 10, [n.digitChar].head? = some '0' → n = 0 := by decide
      exact hall n hn h
    · have hten : n / 10 < n := Nat.div_lt_self (by omega) (by decide)
      rw [List.head?_append_of_ne_nil _ Nat.toDigits_ne_nil] at h
      have := ih (n / 10) hten h
      omega

theorem read?_eq_some_iff :
    read? limit cs = some n ↔ cs ≠ [] ∧ (∀ c ∈ cs, c.isDigit) ∧ value cs = n ∧ n ≤ limit := by
  rw [read?_eq]
  by_cases hdigits : cs ≠ [] ∧ ∀ c ∈ cs, c.isDigit
  · rw [if_neg (by simpa using hdigits)]
    constructor
    · intro h
      split at h
      · rename_i hlimit
        obtain rfl := Option.some.inj h
        exact ⟨hdigits.1, hdigits.2, rfl, hlimit⟩
      · cases h
    · rintro ⟨-, -, rfl, hlimit⟩
      exact if_pos hlimit
  · rw [if_pos (by simpa [Decidable.imp_iff_not_or] using hdigits)]
    exact iff_of_false nofun fun h => hdigits ⟨h.1, h.2.1⟩

theorem readSigned?_eq_some_iff :
    readSigned? limit cs = some n ↔
      ∃ digits, (cs = digits ∨ cs = '+' :: digits) ∧ read? limit digits = some n := by
  constructor
  · intro h
    unfold readSigned? at h
    split at h
    · exact ⟨_, .inr rfl, h⟩
    · exact ⟨_, .inl rfl, h⟩
  · rintro ⟨digits, rfl | rfl, h⟩
    · unfold readSigned?
      split
      · exact absurd ((read?_eq_some_iff.mp h).2.1 '+' List.mem_cons_self) (by decide)
      · exact h
    · exact h

end Numeral

namespace Reader

theorem number_toDigits {limit : Nat} (h : n ≤ limit) (hrest : ∀ c ∈ rest.head?, ¬ c.isDigit) :
    number limit (Nat.toDigits 10 n ++ rest) = some (n, rest) := by
  have hdigits : ∀ c ∈ Nat.toDigits 10 n, c.isDigit := fun _ => Numeral.isDigit_of_mem_toDigits
  rw [number, takeWhile_append_of_stop hdigits hrest, dropWhile_append_of_stop hdigits hrest,
    Numeral.read?_toDigits h]
  rfl

theorem of_char {u : Unit} (h : char c cs = some (u, rest)) : cs = c :: rest := by
  cases cs with
  | nil => cases h
  | cons d cs =>
    rw [char] at h
    split at h
    · rename_i hd
      cases h
      rw [hd]
    · cases h

theorem of_number (h : number limit cs = some (n, rest)) :
    ∃ digits, cs = digits ++ rest ∧ Numeral.read? limit digits = some n := by
  obtain ⟨n', hread, h⟩ := Option.bind_eq_some_iff.mp h
  cases h
  exact ⟨_, List.takeWhile_append_dropWhile.symm, hread⟩

theorem of_all {α : Type} {reader : Reader α} {a : α} (h : all reader cs = some a) :
    reader cs = some (a, []) := by
  unfold all at h
  split at h
  · cases h
    assumption
  · cases h

/-! ### Hexadecimal numerals -/

theorem hexDigit?_digitChar : ∀ d < 16, hexDigit? d.digitChar = some d := by decide

theorem isHexDigit_of_mem_toDigits {c : Char} (h : c ∈ Nat.toDigits 16 n) : isHexDigit c := by
  induction n using Nat.strongRecOn with
  | ind n ih =>
    rw [Nat.toDigits_eq_if (by decide)] at h
    split at h
    · rename_i hn
      rw [List.mem_singleton.mp h, isHexDigit, hexDigit?_digitChar n hn]
      rfl
    · rcases List.mem_append.mp h with h | h
      · exact ih (n / 16) (Nat.div_lt_self (by omega) (by decide)) h
      · rw [List.mem_singleton.mp h, isHexDigit,
          hexDigit?_digitChar _ (Nat.mod_lt n (by decide))]
        rfl

theorem hexValue_toDigits (n : Nat) : hexValue (Nat.toDigits 16 n) = n := by
  induction n using Nat.strongRecOn with
  | ind n ih =>
    have hlast : ∀ (front : List Char) (d : Nat), d < 16 →
        hexValue (front ++ [d.digitChar]) = hexValue front * 16 + d := by
      intro front d hd
      rw [hexValue, List.foldl_append, List.foldl_cons, hexDigit?_digitChar d hd]
      rfl
    rw [Nat.toDigits_eq_if (by decide)]
    split
    · rename_i hn
      exact (hlast [] n hn).trans (Nat.zero_add n)
    · have hshort : n / 16 < n := Nat.div_lt_self (by omega) (by decide)
      rw [hlast _ _ (Nat.mod_lt n (by decide)), ih (n / 16) hshort]
      omega

end Reader

end NatBehavior
