import Mathlib.Data.List.Basic
import NatBehavior.Toml.Quoted

/-! Every text is read back from the form it is written in. Each way a text can go on is one lemma
about each reader, whatever follows; between tripled quotes a run of quotes is only understood at
its end, so there the induction carries the quotes that are still open. -/
namespace NatBehavior.Toml

variable {q : Quote} {c : Char} {cs text rest : List Char} {n : Nat}

theorem newline?_of_isPlain (h : isPlain c) (cs : List Char) : newline? (c :: cs) = none := by
  unfold newline?
  split
  · simp_all [isPlain, isControl]
  · simp_all [isPlain, isControl]
  · rfl

/-! ### Escapes -/

/-- What may be escaped between double quotes. -/
abbrev NeedsEscape (c : Char) : Prop := isControl c ∨ c = '\x22' ∨ c = '\\'

theorem plain_of_not_needsEscape (h : ¬ NeedsEscape c) : isPlain c ∧ c ≠ '\x22' ∧ c ≠ '\\' := by
  simp only [NeedsEscape, not_or] at h
  exact ⟨by simp [isPlain, h.1], h.2⟩

theorem codePoint?_append {digits : List Char} (h : digits.length = n) (cs : List Char) :
    codePoint? n (digits ++ cs) = codePoint? n digits := by
  unfold codePoint?
  rw [List.take_left' h, List.take_of_length_le (Nat.le_of_eq h)]

theorem codePoint?_control (h : isControl c) :
    codePoint? 4 ['0', '0', (Nat.digitChar (c.toNat / 16)).toUpper,
      (Nat.digitChar (c.toNat % 16)).toUpper] = some c := by
  have hall : ∀ n < 128, codePoint? 4 ['0', '0', (Nat.digitChar (n / 16)).toUpper,
      (Nat.digitChar (n % 16)).toUpper] = some (Char.ofNat n) := by
    decide
  have hlow : c.toNat < 128 := by
    simp only [isControl, Bool.or_eq_true, decide_eq_true_eq] at h
    omega
  rw [hall c.toNat hlow, Char.ofNat_toNat]

theorem continuation?_eq_none (hspace : isSpace c = false) (hbreak : c ≠ '\n') (hreturn : c ≠ '\r')
    (cs : List Char) : continuation? (c :: cs) = none := by
  unfold continuation?
  rw [List.takeWhile_cons_of_neg (by simp [hspace])]
  change Option.map _ (newline? (c :: cs)) = none
  unfold newline?
  split <;> simp_all

/-- An escape is a backslash and what is read as the character, and drops no line break. -/
theorem escaped_eq (h : NeedsEscape c) :
    ∃ code, escaped c = '\\' :: code ∧ ∀ cs, escape? (code ++ cs) = some (c, code.length) ∧
      continuation? (code ++ cs) = none := by
  unfold escaped
  split_ifs with hback htab hbreak hfeed hreturn hquote hslash
  -- the only escape by number; the others are fixed texts
  case neg =>
    have hcontrol : isControl c := by
      rcases h with h | h | h
      · exact h
      · exact absurd h hquote
      · exact absurd h hslash
    refine ⟨'u' :: ['0', '0', (Nat.digitChar (c.toNat / 16)).toUpper,
      (Nat.digitChar (c.toNat % 16)).toUpper], rfl, fun cs => ⟨?_, ?_⟩⟩
    · rw [List.cons_append, escape?, codePoint?_append (by rfl), codePoint?_control hcontrol]
      rfl
    · exact continuation?_eq_none rfl (by decide) (by decide) _
  all_goals
    subst c
    exact ⟨_, rfl, fun cs => ⟨rfl, continuation?_eq_none rfl (by decide) (by decide) cs⟩⟩

/-! ### On one line -/

theorem lineBody_mark (q : Quote) (rest : List Char) :
    lineBody q (q.mark :: rest) = some ([], rest) := by
  rw [lineBody, if_pos rfl]

theorem lineBody_plain (hplain : isPlain c) (hmark : c ≠ q.mark) (hslash : q.escapes → c ≠ '\\')
    (h : lineBody q cs = some (text, rest)) : lineBody q (c :: cs) = some (c :: text, rest) := by
  have hescape : ¬ (q.escapes && c = '\\') = true := by simpa using hslash
  rw [lineBody, if_neg hmark, if_neg hescape, if_pos hplain, h]
  rfl

theorem lineBody_escaped (hc : NeedsEscape c) (h : lineBody .basic cs = some (text, rest)) :
    lineBody .basic (escaped c ++ cs) = some (c :: text, rest) := by
  obtain ⟨code, hcode, hread⟩ := escaped_eq hc
  rw [hcode, List.cons_append, lineBody, if_neg (by decide), if_pos (by decide), (hread cs).1]
  dsimp only
  rw [List.drop_left, h]
  rfl

theorem lineText_cons (c : Char) (cs : List Char) :
    lineText (c :: cs) = (if NeedsEscape c then escaped c else [c]) ++ lineText cs := by
  simp [lineText, NeedsEscape, or_assoc]

theorem lineBody_lineText (cs rest : List Char) :
    lineBody .basic (lineText cs ++ '\x22' :: rest) = some (cs, rest) := by
  induction cs with
  | nil => exact lineBody_mark .basic rest
  | cons c cs ih =>
    rw [lineText_cons, List.append_assoc]
    split_ifs with hescape
    · exact lineBody_escaped hescape ih
    · obtain ⟨hplain, hquote, hslash⟩ := plain_of_not_needsEscape hescape
      exact lineBody_plain hplain hquote (fun _ => hslash) ih

theorem lineBody_literal (h : ∀ c ∈ cs, isPlain c ∧ c ≠ '\x27') (rest : List Char) :
    lineBody .literal (cs ++ '\x27' :: rest) = some (cs, rest) := by
  induction cs with
  | nil => exact lineBody_mark .literal rest
  | cons c cs ih =>
    rw [List.forall_mem_cons] at h
    exact lineBody_plain h.1.1 h.1.2 nofun (ih h.2)

/-! ### Between tripled quotes -/

theorem length_takeWhile_replicate_append (hrest : rest.head? ≠ some c) :
    ((List.replicate n c ++ rest).takeWhile (· = c)).length = n := by
  rw [List.takeWhile_append_of_pos (by simp)]
  cases rest with
  | nil => simp
  | cons d rest =>
    have hd : d ≠ c := fun hd => hrest (congrArg some hd)
    simp [hd]

/-- Where a run of quotes ends, its last three are not part of the text. -/
theorem blockBody_end (hn : n ≤ 2) (hrest : rest.head? ≠ some q.mark) :
    blockBody q (List.replicate n q.mark ++ q.mark :: q.mark :: q.mark :: rest) =
      some (List.replicate n q.mark, rest) := by
  have hrun := length_takeWhile_replicate_append (n := n + 3) hrest
  have hdrop : (List.replicate (n + 3) q.mark ++ rest).drop (n + 3) = rest :=
    List.drop_left' List.length_replicate
  have hmarks : List.replicate n q.mark ++ q.mark :: q.mark :: q.mark :: rest =
      List.replicate (n + 3) q.mark ++ rest := by
    rw [List.replicate_add, List.append_assoc]
    rfl
  rw [hmarks]
  rw [List.replicate_succ, List.cons_append] at hrun hdrop ⊢
  rw [blockBody, if_pos rfl]
  dsimp only
  rw [hrun, if_pos (by omega), show min (n + 3 - 3) 2 = n by omega, hdrop]

/-- A shorter run of quotes is part of the text. -/
theorem blockBody_marks (hn : n ≤ 2) (hc : c ≠ q.mark)
    (h : blockBody q (c :: cs) = some (text, rest)) :
    blockBody q (List.replicate n q.mark ++ c :: cs) =
      some (List.replicate n q.mark ++ text, rest) := by
  induction n with
  | zero => exact h
  | succ n ih =>
    have hrun :
        ((List.replicate (n + 1) q.mark ++ c :: cs).takeWhile (· = q.mark)).length = n + 1 :=
      length_takeWhile_replicate_append (fun hhead => hc (Option.some.inj hhead))
    rw [List.replicate_succ, List.cons_append] at hrun ⊢
    rw [blockBody, if_pos rfl]
    dsimp only
    rw [hrun, if_neg (by omega), ih (by omega)]
    rfl

theorem blockBody_plain (hplain : isPlain c) (hmark : c ≠ q.mark) (hslash : q.escapes → c ≠ '\\')
    (h : blockBody q cs = some (text, rest)) : blockBody q (c :: cs) = some (c :: text, rest) := by
  have hescape : ¬ (q.escapes && c = '\\') = true := by simpa using hslash
  rw [blockBody, if_neg hmark, if_neg hescape, newline?_of_isPlain hplain]
  dsimp only
  rw [if_pos hplain, h]
  rfl

theorem blockBody_newline (h : blockBody q cs = some (text, rest)) :
    blockBody q ('\n' :: cs) = some ('\n' :: text, rest) := by
  have hmark : '\n' ≠ q.mark := by cases q <;> decide
  rw [blockBody, if_neg hmark, if_neg (by simp)]
  change Option.map _ (blockBody q (cs.drop 0)) = _
  rw [List.drop_zero, h]
  rfl

theorem blockBody_escaped (hc : NeedsEscape c) (h : blockBody .basic cs = some (text, rest)) :
    blockBody .basic (escaped c ++ cs) = some (c :: text, rest) := by
  obtain ⟨code, hcode, hread⟩ := escaped_eq hc
  obtain ⟨hescape, hcontinuation⟩ := hread cs
  rw [hcode, List.cons_append, blockBody, if_neg (by decide), if_pos (by decide), hcontinuation]
  dsimp only
  rw [hescape]
  dsimp only
  rw [List.drop_left, h]
  rfl

theorem blockText_cons (n : Nat) (c : Char) (cs : List Char) :
    (NeedsEscape c ∧ blockText n (c :: cs) = escaped c ++ blockText 0 cs) ∨
    (c = '\x22' ∧ n ≠ 2 ∧ blockText n (c :: cs) = c :: blockText (n + 1) cs) ∨
    ((c = '\n' ∨ ¬ NeedsEscape c) ∧ blockText n (c :: cs) = c :: blockText 0 cs) := by
  rw [blockText]
  split_ifs with hquote htwo hbreak hescape
  · exact .inl ⟨.inr (.inl hquote), rfl⟩
  · exact .inr (.inl ⟨hquote, htwo, rfl⟩)
  · exact .inr (.inr ⟨.inl hbreak, rfl⟩)
  · rw [Bool.or_eq_true, decide_eq_true_eq] at hescape
    exact .inl ⟨hescape.imp_right .inr, rfl⟩
  · simp only [Bool.or_eq_true, decide_eq_true_eq, not_or] at hescape
    exact .inr (.inr ⟨.inr (by simp [NeedsEscape, hquote, hescape]), rfl⟩)

/-- The text between tripled double quotes, behind quotes that are still open. -/
theorem blockBody_blockText (hn : n ≤ 2) (cs : List Char) (hrest : rest.head? ≠ some '\x22') :
    blockBody .basic (List.replicate n '\x22' ++
        (blockText n cs ++ '\x22' :: '\x22' :: '\x22' :: rest)) =
      some (List.replicate n '\x22' ++ cs, rest) := by
  -- the reader takes a run as a whole, so the quotes before `cs` are read only where it ends
  induction cs generalizing n with
  | nil =>
    rw [List.append_nil]
    exact blockBody_end (q := .basic) hn hrest
  | cons c cs ih =>
    have hzero := ih (Nat.zero_le 2)
    rw [List.replicate_zero, List.nil_append, List.nil_append] at hzero
    rcases blockText_cons n c cs with ⟨hescape, htext⟩ | ⟨rfl, htwo, htext⟩ | ⟨hkept, htext⟩
    · have hread := blockBody_escaped hescape hzero
      obtain ⟨code, hcode, -⟩ := escaped_eq hescape
      rw [hcode] at hread
      rw [htext, List.append_assoc, hcode]
      exact blockBody_marks (q := .basic) hn (by decide) hread
    · have hnext := ih (show n + 1 ≤ 2 by omega)
      rw [List.replicate_succ', List.append_assoc, List.append_assoc] at hnext
      rw [htext]
      exact hnext
    · rw [htext]
      rcases hkept with rfl | hplain
      · exact blockBody_marks (q := .basic) hn (by decide) (blockBody_newline hzero)
      · obtain ⟨hplain, hquote, hslash⟩ := plain_of_not_needsEscape hplain
        exact blockBody_marks (q := .basic) hn hquote
          (blockBody_plain hplain hquote (fun _ => hslash) hzero)

/-- The longest run of a character so far and the one that may go on, behind one more character. -/
def countRun (mark : Char) (runs : Nat × Nat) (c : Char) : Nat × Nat :=
  let run := if c = mark then runs.2 + 1 else 0
  (max runs.1 run, run)

theorem longestRun_eq (c : Char) (cs : List Char) :
    longestRun c cs = (cs.foldl (countRun c) (0, 0)).1 := rfl

theorem le_foldl_countRun (c : Char) (cs : List Char) (runs : Nat × Nat) :
    runs.1 ≤ (cs.foldl (countRun c) runs).1 := by
  induction cs generalizing runs with
  | nil => exact Nat.le_refl _
  | cons d cs ih => exact Nat.le_trans (Nat.le_max_left _ _) (ih (countRun c runs d))

/-- The text between tripled single quotes, behind quotes that are still open. -/
theorem blockBody_literal {longest : Nat} (hn : n ≤ 2)
    (hruns : (cs.foldl (countRun '\x27') (longest, n)).1 ≤ 2)
    (hclean : ∀ c ∈ cs, isPlain c ∨ c = '\n') (hrest : rest.head? ≠ some '\x27') :
    blockBody .literal (List.replicate n '\x27' ++ (cs ++ '\x27' :: '\x27' :: '\x27' :: rest)) =
      some (List.replicate n '\x27' ++ cs, rest) := by
  induction cs generalizing n longest with
  | nil =>
    rw [List.append_nil]
    exact blockBody_end (q := .literal) hn hrest
  | cons c cs ih =>
    rw [List.forall_mem_cons] at hclean
    rw [List.foldl_cons] at hruns
    by_cases hquote : c = '\x27'
    -- the longest run is at least the open one, which therefore has room for this quote
    · subst hquote
      have hlongest : max longest (n + 1) ≤ 2 := Nat.le_trans
        (le_foldl_countRun '\x27' cs (countRun '\x27' (longest, n) '\x27')) hruns
      have hopen : n + 1 ≤ 2 := Nat.le_trans (Nat.le_max_right _ _) hlongest
      have hnext := ih hopen hruns hclean.2
      rw [List.replicate_succ', List.append_assoc, List.append_assoc] at hnext
      exact hnext
    · have hzero := ih (Nat.zero_le 2) (by simpa [countRun, hquote] using hruns) hclean.2
      refine blockBody_marks (q := .literal) hn hquote ?_
      rcases hclean.1 with hplain | rfl
      · exact blockBody_plain hplain hquote nofun hzero
      · exact blockBody_newline hzero

/-! ### All forms -/

theorem quotedString_block (q : Quote) (cs : List Char) :
    quotedString (q.mark :: q.mark :: q.mark :: cs) =
      (blockBody q (cs.drop ((newline? cs).getD 0))).map fun (text, rest) =>
        (String.ofList text, rest) := by
  cases q <;> rfl

theorem lineString_mark (q : Quote) (h : lineBody q cs = some (text, rest)) :
    lineString q (q.mark :: cs) = some (String.ofList text, rest) := by
  simp only [lineString, Reader.char_self, h, Option.bind_eq_bind, Option.bind_some]
  rfl

/-- Only tripled quotes start a string that is not on one line. -/
theorem quotedString_cons (h : ∀ tail, cs = c :: c :: tail → c ≠ '\x22' ∧ c ≠ '\x27') :
    quotedString (c :: cs) = (lineString .basic (c :: cs) <|> lineString .literal (c :: cs)) := by
  unfold quotedString
  split
  · rename_i a b d tail heq
    obtain ⟨rfl, rfl⟩ := List.cons.inj heq
    refine if_neg ?_
    rintro ⟨rfl, rfl, hquote⟩
    obtain ⟨hbasic, hliteral⟩ := h tail rfl
    exact hquote.elim hbasic hliteral
  · rfl

theorem quotedString_line (q : Quote) (hcs : ∀ tail, cs ≠ q.mark :: q.mark :: tail)
    (h : lineBody q cs = some (text, rest)) :
    quotedString (q.mark :: cs) = some (String.ofList text, rest) := by
  have hread := lineString_mark q h
  rw [quotedString_cons fun tail htail => absurd htail (hcs tail)]
  cases q with
  | basic =>
    rw [hread]
    rfl
  | literal => exact hread

theorem lineText_cons_append_ne (c : Char) (cs front tail : List Char) :
    lineText (c :: cs) ++ front ≠ '\x22' :: tail := by
  rw [lineText_cons]
  split_ifs with hescape
  · obtain ⟨code, hcode, -⟩ := escaped_eq hescape
    simp [hcode]
  · simp [(plain_of_not_needsEscape hescape).2.1]

theorem quotedString_basicLine (cs : List Char) (hrest : rest.head? ≠ some '\x22') :
    quotedString ('\x22' :: lineText cs ++ ['\x22'] ++ rest) = some (String.ofList cs, rest) := by
  simp only [List.cons_append, List.append_assoc]
  refine quotedString_line .basic (fun tail h => ?_) (lineBody_lineText cs rest)
  cases cs with
  | nil => exact hrest (congrArg List.head? (List.cons.inj h).2)
  | cons c cs => exact lineText_cons_append_ne c cs _ _ h

theorem quotedString_literalLine (hcs : ∀ c ∈ cs, isPlain c ∧ c ≠ '\x27')
    (hrest : rest.head? ≠ some '\x27') :
    quotedString ('\x27' :: cs ++ ['\x27'] ++ rest) = some (String.ofList cs, rest) := by
  simp only [List.cons_append, List.append_assoc]
  refine quotedString_line .literal (fun tail h => ?_) (lineBody_literal hcs rest)
  cases cs with
  | nil => exact hrest (congrArg List.head? (List.cons.inj h).2)
  | cons c cs => exact (hcs c List.mem_cons_self).2 (List.cons.inj h).1

theorem newline?_blockText (hbreak : '\n' ∉ cs) (tail : List Char) :
    newline? (blockText 0 cs ++ '\x22' :: tail) = none := by
  cases cs with
  | nil => rfl
  | cons c cs =>
    rcases blockText_cons 0 c cs with ⟨hescape, htext⟩ | ⟨rfl, -, htext⟩ | ⟨hkept, htext⟩
    · obtain ⟨code, hcode, -⟩ := escaped_eq hescape
      rw [htext, hcode]
      rfl
    · rw [htext]
      rfl
    · have hescape := hkept.resolve_left fun hc => hbreak (hc ▸ List.mem_cons_self)
      rw [htext]
      exact newline?_of_isPlain (plain_of_not_needsEscape hescape).1 _

/-- A line break in front is only kept behind another. -/
theorem quotedString_opened (q : Quote) (isBroken : Bool)
    (hopen : isBroken = false → newline? cs = none)
    (h : blockBody q cs = some (text, rest)) :
    quotedString ([q.mark, q.mark, q.mark] ++ (if isBroken then ['\n'] else []) ++ cs) =
      some (String.ofList text, rest) := by
  cases isBroken with
  | true =>
    change quotedString (q.mark :: q.mark :: q.mark :: '\n' :: cs) = _
    rw [quotedString_block]
    change (blockBody q cs).map _ = _
    rw [h]
    rfl
  | false =>
    change quotedString (q.mark :: q.mark :: q.mark :: cs) = _
    rw [quotedString_block, hopen rfl]
    change (blockBody q cs).map _ = _
    rw [h]
    rfl

theorem quotedString_basicBlock (cs : List Char) (hrest : rest.head? ≠ some '\x22') :
    quotedString (['\x22', '\x22', '\x22'] ++ (if cs.contains '\n' then ['\n'] else []) ++
      blockText 0 cs ++ ['\x22', '\x22', '\x22'] ++ rest) = some (String.ofList cs, rest) := by
  rw [List.append_assoc, List.append_assoc]
  refine quotedString_opened .basic (cs.contains '\n') (fun hbreak => ?_)
    (blockBody_blockText (Nat.zero_le 2) cs hrest)
  exact newline?_blockText (by simpa using hbreak) _

theorem quotedString_literalBlock (hclean : ∀ c ∈ cs, isPlain c ∨ c = '\n')
    (hruns : longestRun '\x27' cs ≤ 2) (hrest : rest.head? ≠ some '\x27') :
    quotedString (['\x27', '\x27', '\x27'] ++ (if cs.contains '\n' then ['\n'] else []) ++
      cs ++ ['\x27', '\x27', '\x27'] ++ rest) = some (String.ofList cs, rest) := by
  rw [longestRun_eq] at hruns
  rw [List.append_assoc, List.append_assoc]
  refine quotedString_opened .literal (cs.contains '\n') (fun hbreak => ?_)
    (blockBody_literal (Nat.zero_le 2) hruns hclean hrest)
  cases cs with
  | nil => rfl
  | cons c cs =>
    have hc : c ≠ '\n' := by
      rintro rfl
      simp at hbreak
    exact newline?_of_isPlain ((hclean c List.mem_cons_self).resolve_right hc) _

/-- A text is read back from its written form, wherever no further quote follows. -/
theorem quotedString_quote (s : String) (hbasic : rest.head? ≠ some '\x22')
    (hliteral : rest.head? ≠ some '\x27') : quotedString (quote s ++ rest) = some (s, rest) := by
  have hline := quotedString_basicLine s.toList hbasic
  have hblock := quotedString_basicBlock s.toList hbasic
  rw [String.ofList_toList] at hline hblock
  unfold quote
  lift_lets
  intro cs isBroken isClean opening basicBlock basicLine
  have hclean : isClean = true → ∀ c ∈ cs, isPlain c ∨ c = '\n' := by
    intro h c hc
    simpa using List.all_eq_true.mp h c hc
  have hmissing : ∀ d, (!cs.contains d) = true → ∀ c ∈ cs, c ≠ d := by
    rintro d h c hc rfl
    simp [hc] at h
  split_ifs with hplain hsingle hfew hruns hbroken
  · exact hline
  · simp only [Bool.and_eq_true] at hsingle
    obtain ⟨⟨hplain, hbreak⟩, hquote⟩ := hsingle
    have hchars : ∀ c ∈ cs, isPlain c ∧ c ≠ '\x27' := fun c hc =>
      ⟨(hclean hplain c hc).resolve_right (hmissing _ hbreak c hc), hmissing _ hquote c hc⟩
    have hread := quotedString_literalLine hchars hliteral
    rwa [String.ofList_toList] at hread
  · exact hblock
  · simp only [Bool.and_eq_true, decide_eq_true_eq] at hruns
    have hread := quotedString_literalBlock (hclean hruns.1) hruns.2 hliteral
    rwa [String.ofList_toList] at hread
  · exact hblock
  · exact hline

theorem exists_quote_eq (s : String) : ∃ (q : Quote) (cs : List Char), quote s = q.mark :: cs := by
  unfold quote
  lift_lets
  intro cs isBroken isClean opening basicBlock basicLine
  split_ifs
  · exact ⟨.basic, _, rfl⟩
  · exact ⟨.literal, _, rfl⟩
  · exact ⟨.basic, _, rfl⟩
  · exact ⟨.literal, _, rfl⟩
  · exact ⟨.basic, _, rfl⟩
  · exact ⟨.basic, _, rfl⟩

theorem lineString_eq_none (q : Quote) (hc : c ≠ q.mark) (cs : List Char) :
    lineString q (c :: cs) = none := by
  rw [lineString, Reader.char, if_neg hc.symm]
  rfl

theorem quotedString_eq_none (hbasic : c ≠ '\x22') (hliteral : c ≠ '\x27') (cs : List Char) :
    quotedString (c :: cs) = none := by
  rw [quotedString_cons fun _ _ => ⟨hbasic, hliteral⟩, lineString_eq_none .basic hbasic,
    lineString_eq_none .literal hliteral]
  rfl

end NatBehavior.Toml
