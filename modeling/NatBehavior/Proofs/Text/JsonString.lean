import NatBehavior.Proofs.Text.Reader
import NatBehavior.Text.JsonString

/-! A string that was written is read back, whatever characters it has. -/
namespace NatBehavior.JsonString

open JsonValue (escaped quote)

variable {s rest : List Char} {bound : Nat}

/-- What is escaped never looks like the end of the text. -/
theorem head?_escaped_append (c : Char) (cs : List Char) :
    (escaped c ++ cs).head? ≠ some '\x22' := by
  unfold escaped
  split_ifs with hquote
  case neg => exact fun h => hquote (Option.some.inj h)
  all_goals simp

theorem character_of_plain {c : Char} (hslash : c ≠ '\\') (hcontrol : ¬ c.toNat < 0x20)
    (cs : List Char) : character (c :: cs) = some (c, cs) := by
  unfold character
  split
  · rename_i h
    exact absurd (List.cons.inj h).1 hslash
  · rename_i h
    cases h
    exact if_neg hcontrol
  · rename_i h
    cases h

/-- A control without a letter of its own is escaped by the two last of four digits. -/
theorem escape_control {n : Nat} (h : n < 0x20) (cs : List Char) :
    escape ('u' :: '0' :: '0' :: Nat.digitChar (n / 16) :: Nat.digitChar (n % 16) :: cs) =
      some (Char.ofNat n, cs) := by
  have hunit : ∀ n < 0x20, Reader.inRadix? 16 0xFFFF
      ['0', '0', Nat.digitChar (n / 16), Nat.digitChar (n % 16)] = some n := by decide
  have hhigh : isHighSurrogate n = false := by
    simp [isHighSurrogate]; omega
  have hlow : isLowSurrogate n = false := by
    simp [isLowSurrogate]; omega
  have hread : unit ('0' :: '0' :: Nat.digitChar (n / 16) :: Nat.digitChar (n % 16) :: cs) =
      some (n, cs) := by
    rw [unit, hunit n h]
    rfl
  rw [escape, hread, Option.bind_eq_bind, Option.bind_some]
  dsimp only
  rw [hlow, hhigh]
  rfl

theorem character_escaped (c : Char) (cs : List Char) :
    character (escaped c ++ cs) = some (c, cs) := by
  unfold escaped
  split_ifs with hquote hslash hb hf hn hr ht hcontrol
  · subst hquote
    rfl
  · subst hslash
    rfl
  · subst hb
    rfl
  · subst hf
    rfl
  · subst hn
    rfl
  · subst hr
    rfl
  · subst ht
    rfl
  · exact (escape_control hcontrol cs).trans (by rw [Char.ofNat_toNat])
  · exact character_of_plain hslash hcontrol cs

theorem characters_succ {c : Char} {cs cs' : List Char} (hend : cs.head? ≠ some '\x22')
    (hread : character cs = some (c, cs')) (hmore : characters bound cs' = some (s, rest)) :
    characters (bound + 1) cs = some (c :: s, rest) := by
  unfold characters
  split
  · exact absurd rfl hend
  · contradiction
  · rename_i hbound _
    obtain rfl := Nat.succ.inj hbound
    simp only [hread, hmore, Option.bind_eq_bind, Option.bind_some]
    rfl

theorem characters_escaped (h : s.length ≤ bound) :
    characters bound (s.flatMap escaped ++ '\x22' :: rest) = some (s, rest) := by
  induction s generalizing bound with
  | nil => cases bound <;> rfl
  | cons c s ih =>
    cases bound with
    | zero => cases h
    | succ bound =>
      rw [List.flatMap_cons, List.append_assoc]
      exact characters_succ (head?_escaped_append c _) (character_escaped c _)
        (ih (Nat.le_of_succ_le_succ h))

theorem escaped_ne_nil (c : Char) : escaped c ≠ [] := by
  unfold escaped
  split_ifs <;> exact List.cons_ne_nil _ _

theorem string_quote (s : String) (rest : List Char) :
    string (quote s ++ rest) = some (s, rest) := by
  have hquote : quote s ++ rest = '\x22' :: (s.toList.flatMap escaped ++ '\x22' :: rest) := by
    simp [quote]
  have hbound : s.toList.length ≤ (s.toList.flatMap escaped ++ '\x22' :: rest).length := by
    have hlength := length_le_length_flatMap escaped_ne_nil s.toList
    rw [List.length_append]
    omega
  rw [hquote, string, Reader.char_self]
  change (characters _ (s.toList.flatMap escaped ++ '\x22' :: rest)).bind _ = _
  rw [characters_escaped hbound]
  exact congrArg (fun s => some (s, rest)) String.ofList_toList

theorem ofText?_quote (s : String) : ofText? (quote s) = some s := by
  have hquote : (quote s).dropWhile isSpace = quote s ++ [] := (List.append_nil _).symm
  rw [ofText?, hquote, string_quote]
  rfl

end NatBehavior.JsonString
