import Mathlib.Data.Option.Basic
import NatBehavior.Proofs.Text.JsonString
import NatBehavior.Text.JsonReader

/-! The text of a value is JSON, and tells the value: a reader of JSON texts takes it off the front
of whatever is behind it, except that a number goes on while there are digits. What stands first in
the text of an item is no space and no closing bracket, so the reader finds where items begin. -/
namespace NatBehavior.JsonValue

open JsonString (isSpace)

variable {α : Type} {opening closing : Char} {level : Nat} {rest : List Char}

/-! ### Numbers -/

/-- Where no number goes on. -/
def Closed (rest : List Char) : Prop := ∀ c ∈ rest.head?, ¬ c.isDigit

theorem not_isDigit_of_isSpace {c : Char} (h : isSpace c = true) : ¬ c.isDigit := by
  have hall : [' ', '\t', '\n', '\r'].all (! ·.isDigit) = true := by decide
  simpa using List.all_eq_true.mp hall c (List.contains_iff_mem.mp h)

theorem closed_of_all_isSpace (h : rest.all isSpace) : Closed rest := fun _ hc =>
  not_isDigit_of_isSpace (List.all_eq_true.mp h _ (List.mem_of_mem_head? hc))

theorem natural_toDigits (n : Nat) (hrest : Closed rest) :
    natural (Nat.toDigits 10 n ++ rest) = some (n, rest) := by
  have hdigits : ∀ c ∈ Nat.toDigits 10 n, c.isDigit := fun _ => Numeral.isDigit_of_mem_toDigits
  have hzero : (Nat.toDigits 10 n).head? = some '0' → Nat.toDigits 10 n = ['0'] := by
    intro h
    rw [Numeral.eq_zero_of_head?_toDigits h]
    rfl
  rw [natural, takeWhile_append_of_stop hdigits hrest, dropWhile_append_of_stop hdigits hrest,
    if_neg, Numeral.value_toDigits]
  rintro (hnil | ⟨hhead, hmore⟩)
  · exact Nat.toDigits_ne_nil hnil
  · exact hmore (hzero hhead)

/-! ### Items on lines of their own -/

/-- The lines of items in a block, and what closes it. -/
def itemLines (closing : Char) (level : Nat) (item : List Char) (items : List (List Char)) :
    List Char :=
  newLine (level + 1) ++ (item ++ (items.flatMap (fun item => ',' :: (newLine (level + 1) ++ item)) ++
    (newLine level ++ [closing])))

theorem block_cons (item : List Char) (items : List (List Char)) :
    block opening closing level (item :: items) = opening :: itemLines closing level item items := by
  have hlines : [','].intercalate ((item :: items).map (newLine (level + 1) ++ ·)) =
      newLine (level + 1) ++ item ++
        items.flatMap (fun item => ',' :: (newLine (level + 1) ++ item)) := by
    rw [List.map_cons, intercalate_cons, List.flatMap_map]
  rw [block, if_neg (by simp)]
  dsimp only
  rw [hlines, itemLines]
  simp

theorem length_lt_block {item : List Char} {items : List (List Char)} (h : item ∈ items) :
    item.length < (block opening closing level items).length := by
  cases items with
  | nil => cases h
  | cons first items =>
    rw [block_cons, List.length_cons, itemLines, List.length_append, List.length_append,
      List.length_append]
    rcases List.mem_cons.mp h with rfl | h
    · omega
    · have hline := (List.sublist_flatten_of_mem (List.mem_map_of_mem h
        (f := fun item => ',' :: (newLine (level + 1) ++ item)))).length_le
      rw [List.length_cons, List.length_append] at hline
      rw [List.flatMap_def]
      omega

theorem dropWhile_newLine_append (h : ∀ c ∈ rest.head?, ¬ isSpace c) (level : Nat) :
    (newLine level ++ rest).dropWhile isSpace = rest := by
  refine dropWhile_append_of_stop (fun c hc => ?_) h
  rcases List.mem_cons.mp hc with rfl | hc
  · rfl
  · rw [List.eq_of_mem_replicate hc]
    rfl

/-- Whether a reader of items takes a text for an item, wherever it stands among others. -/
structure Legible (item : Reader α) (closing : Char) (text : List Char) (x : α) : Prop where
  starts : ∃ c cs, text = c :: cs ∧ isSpace c = false ∧ c ≠ closing
  read : ∀ rest, Closed rest → item (text ++ rest) = some (x, rest)

section

variable {item : Reader α} {write : α → List Char} {text tail : List Char} {x : α} {xs : List α}
  {bound : Nat}

/-- The spaces in front of an item are passed over. -/
theorem Legible.dropWhile_line (h : Legible item closing text x) (level : Nat)
    (tail : List Char) : (newLine level ++ (text ++ tail)).dropWhile isSpace = text ++ tail := by
  obtain ⟨c, cs, rfl, hspace, -⟩ := h.starts
  refine dropWhile_newLine_append (fun d hd => ?_) level
  obtain rfl := Option.some.inj hd
  exact Bool.eq_false_iff.mp hspace

theorem items_last (h : Legible item closing text x) (htail : Closed tail)
    (hclosing : tail.dropWhile isSpace = closing :: rest) :
    items item closing (bound + 1) (newLine level ++ (text ++ tail)) = some ([x], rest) := by
  rw [items, h.dropWhile_line, h.read _ htail]
  dsimp only [Option.bind_eq_bind, Option.bind_some]
  rw [hclosing]
  exact if_pos rfl

theorem items_next (h : Legible item closing text x) (hcomma : ',' ≠ closing)
    (hmore : items item closing bound tail = some (xs, rest)) :
    items item closing (bound + 1) (newLine level ++ (text ++ ',' :: tail)) =
      some (x :: xs, rest) := by
  have htail : Closed (',' :: tail) := by
    intro c hc
    obtain rfl := Option.some.inj hc
    decide
  rw [items, h.dropWhile_line, h.read _ htail]
  change (if ',' = closing then _ else _) = _
  rw [if_neg hcomma]
  change (items item closing bound tail).bind _ = _
  rw [hmore]
  rfl

theorem items_itemLines (hspace : isSpace closing = false) (hcomma : ',' ≠ closing)
    (hx : Legible item closing (write x) x) (hxs : ∀ y ∈ xs, Legible item closing (write y) y)
    (hbound : xs.length < bound) :
    items item closing bound (itemLines closing level (write x) (xs.map write) ++ rest) =
      some (x :: xs, rest) := by
  obtain ⟨bound, rfl⟩ := Nat.exists_eq_succ_of_ne_zero (Nat.ne_of_gt (Nat.zero_lt_of_lt hbound))
  induction xs generalizing x bound with
  | nil =>
    have hlines : itemLines closing level (write x) [] ++ rest =
        newLine (level + 1) ++ (write x ++ (newLine level ++ closing :: rest)) := by
      simp [itemLines]
    have htail : Closed (newLine level ++ closing :: rest) := by
      intro c hc
      obtain rfl := Option.some.inj hc
      decide
    rw [List.map_nil, hlines]
    refine items_last hx htail (dropWhile_newLine_append ?_ level)
    rintro c hc
    obtain rfl := Option.some.inj hc
    exact Bool.eq_false_iff.mp hspace
  | cons y ys ih =>
    have hlines : itemLines closing level (write x) ((y :: ys).map write) ++ rest =
        newLine (level + 1) ++
          (write x ++ ',' :: (itemLines closing level (write y) (ys.map write) ++ rest)) := by
      simp [itemLines]
    rw [List.forall_mem_cons] at hxs
    obtain ⟨bound, rfl⟩ := Nat.exists_eq_succ_of_ne_zero
      (Nat.ne_of_gt (Nat.zero_lt_of_lt (Nat.lt_of_succ_lt_succ hbound)))
    rw [hlines]
    exact items_next hx hcomma (ih hxs.1 hxs.2 bound (Nat.lt_of_succ_lt_succ hbound))

theorem bracketed_block (hspace : isSpace closing = false) (hcomma : ',' ≠ closing)
    (hxs : ∀ x ∈ xs, Legible item closing (write x) x) {cs : List Char}
    (htext : block opening closing level (xs.map write) = opening :: cs) :
    bracketed item closing (cs ++ rest) = some (xs, rest) := by
  cases xs with
  | nil =>
    obtain ⟨-, rfl⟩ := List.cons.inj htext
    have hclosing : ([closing] ++ rest).dropWhile isSpace = closing :: rest :=
      List.dropWhile_cons_of_neg (Bool.eq_false_iff.mp hspace)
    rw [bracketed, hclosing]
    exact if_pos rfl
  | cons x xs =>
    rw [List.map_cons, block_cons] at htext
    obtain ⟨-, rfl⟩ := List.cons.inj htext
    rw [List.forall_mem_cons] at hxs
    obtain ⟨c, cs, hwrite, -, hclosing⟩ := hxs.1.starts
    have hfront : (itemLines closing level (write x) (xs.map write) ++ rest).dropWhile isSpace =
        c :: (cs ++ (xs.map write).flatMap (fun item => ',' :: (newLine (level + 1) ++ item)) ++
          (newLine level ++ [closing]) ++ rest) := by
      rw [itemLines, List.append_assoc, List.append_assoc, hxs.1.dropWhile_line, hwrite]
      simp
    have hbound : xs.length < (itemLines closing level (write x) (xs.map write) ++ rest).length := by
      have hlines := length_le_length_flatMap
        (fun item => List.cons_ne_nil ',' (newLine (level + 1) ++ item)) (xs.map write)
      rw [List.length_map] at hlines
      simp only [itemLines, List.length_append, newLine, List.length_cons] at hlines ⊢
      omega
    rw [bracketed, hfront]
    dsimp only
    rw [if_neg hclosing, items_itemLines hspace hcomma hxs.1 hxs.2 hbound]

end

/-! ### Values -/

theorem itemTexts_eq_map (level : Nat) (items : List JsonValue) :
    itemTexts level items = items.map (textAt level) := by
  induction items with
  | nil => rfl
  | cons v items ih => rw [itemTexts, ih, List.map_cons]

def memberText (level : Nat) (member : String × JsonValue) : List Char :=
  quote member.1 ++ ':' :: ' ' :: textAt level member.2

theorem memberTexts_eq_map (level : Nat) (members : List (String × JsonValue)) :
    memberTexts level members = members.map (memberText level) := by
  induction members with
  | nil => rfl
  | cons member members ih =>
    rw [memberTexts, ih, List.map_cons]
    rfl

theorem exists_block_eq_cons (opening closing : Char) (level : Nat) (items : List (List Char)) :
    ∃ cs, block opening closing level items = opening :: cs := by
  cases items with
  | nil => exact ⟨_, rfl⟩
  | cons item items => exact ⟨_, block_cons item items⟩

/-- What stands first in the text of a value. -/
theorem exists_textAt_eq_cons (level : Nat) (v : JsonValue) :
    ∃ c cs, textAt level v = c :: cs ∧ (c ∈ ['n', '\x22', '[', '\x7b'] ∨ c.isDigit) := by
  cases v with
  | null => exact ⟨_, _, rfl, .inl (by decide)⟩
  | number n =>
    obtain ⟨c, cs, hdigits⟩ := List.exists_cons_of_ne_nil (Nat.toDigits_ne_nil (n := n) (b := 10))
    exact ⟨c, cs, hdigits, .inr (Numeral.isDigit_of_mem_toDigits (hdigits ▸ List.mem_cons_self))⟩
  | string s => exact ⟨_, _, rfl, .inl (by decide)⟩
  | array items =>
    obtain ⟨cs, hblock⟩ := exists_block_eq_cons '[' ']' level (itemTexts (level + 1) items)
    exact ⟨_, cs, hblock, .inl (by decide)⟩
  | object members =>
    obtain ⟨cs, hblock⟩ :=
      exists_block_eq_cons '\x7b' '\x7d' level (memberTexts (level + 1) members)
    exact ⟨_, cs, hblock, .inl (by decide)⟩

theorem starts_textAt (level : Nat) (v : JsonValue) :
    ∃ c cs, textAt level v = c :: cs ∧ isSpace c = false ∧ c ≠ ']' := by
  obtain ⟨c, cs, htext, hstart⟩ := exists_textAt_eq_cons level v
  refine ⟨c, cs, htext, ?_⟩
  rcases hstart with hstart | hdigit
  · have hall : ['n', '\x22', '[', '\x7b'].all (fun c => ! isSpace c && c ≠ ']') = true := by decide
    simpa using List.all_eq_true.mp hall c hstart
  · refine ⟨Bool.eq_false_iff.mpr fun hspace => not_isDigit_of_isSpace hspace hdigit, ?_⟩
    rintro rfl
    exact absurd hdigit (by decide)

theorem dropWhile_textAt_append (level : Nat) (v : JsonValue) (rest : List Char) :
    (textAt level v ++ rest).dropWhile isSpace = textAt level v ++ rest := by
  obtain ⟨c, cs, htext, hspace, -⟩ := starts_textAt level v
  rw [htext]
  exact List.dropWhile_cons_of_neg (Bool.eq_false_iff.mp hspace)

theorem value_of_isDigit {depth : Nat} {c : Char} {cs : List Char} (h : c.isDigit) :
    value (depth + 1) (c :: cs) = (natural (c :: cs)).map fun (n, cs) => (number n, cs) := by
  unfold value
  split
  case h_5 => rfl
  all_goals
    rename_i hcs
    obtain ⟨rfl, -⟩ := List.cons.inj hcs
    exact absurd h (by decide)

theorem member_memberText {read : Reader JsonValue} {entry : String × JsonValue}
    (hread : read (textAt level entry.2 ++ rest) = some (entry.2, rest)) :
    member read (memberText level entry ++ rest) = some (entry, rest) := by
  have htext : memberText level entry ++ rest =
      quote entry.1 ++ ':' :: ' ' :: (textAt level entry.2 ++ rest) := by
    simp [memberText]
  have hspace : (' ' :: (textAt level entry.2 ++ rest)).dropWhile isSpace =
      textAt level entry.2 ++ rest := dropWhile_textAt_append level entry.2 rest
  rw [htext, member, JsonString.string_quote]
  change (read ((' ' :: (textAt level entry.2 ++ rest)).dropWhile isSpace)).bind _ = _
  rw [hspace, hread]
  rfl

/-- A value is read back whatever is behind it. The depth is met by the length of the text. -/
theorem value_textAt {depth : Nat} (v : JsonValue) (hdepth : (textAt level v).length ≤ depth)
    (hrest : Closed rest) : value depth (textAt level v ++ rest) = some (v, rest) := by
  induction depth generalizing level v rest with
  | zero =>
    obtain ⟨c, cs, htext, -⟩ := exists_textAt_eq_cons level v
    rw [htext] at hdepth
    cases hdepth
  | succ depth ih =>
    cases v with
    | null => rfl
    | number n =>
      obtain ⟨c, cs, hdigits⟩ := List.exists_cons_of_ne_nil (Nat.toDigits_ne_nil (n := n) (b := 10))
      have hdigit : c.isDigit := Numeral.isDigit_of_mem_toDigits (hdigits ▸ List.mem_cons_self)
      have hread := natural_toDigits n hrest
      rw [textAt]
      rw [hdigits, List.cons_append] at hread ⊢
      rw [value_of_isDigit hdigit, hread]
      rfl
    | string s => exact congrArg (Option.map _) (JsonString.string_quote s rest)
    | array items =>
      rw [textAt, itemTexts_eq_map] at hdepth ⊢
      have hitems : ∀ v ∈ items, Legible (value depth) ']' (textAt (level + 1) v) v :=
        fun v hv => ⟨starts_textAt _ v, fun rest hrest => ih v (Nat.le_of_lt_succ
          ((length_lt_block (List.mem_map_of_mem hv)).trans_le hdepth)) hrest⟩
      obtain ⟨cs, hblock⟩ :=
        exists_block_eq_cons '[' ']' level (items.map (textAt (level + 1)))
      have hread : bracketed _ _ (cs ++ rest) = _ :=
        bracketed_block (by decide) (by decide) hitems hblock
      rw [hblock, List.cons_append]
      exact congrArg (Option.map _) hread
    | object members =>
      rw [textAt, memberTexts_eq_map] at hdepth ⊢
      have hmembers : ∀ m ∈ members,
          Legible (member (value depth)) '\x7d' (memberText (level + 1) m) m := by
        intro m hm
        refine ⟨⟨'\x22', _, rfl, by decide, by decide⟩, fun rest hrest =>
          member_memberText (ih m.2 ?_ hrest)⟩
        have hshort := (length_lt_block (List.mem_map_of_mem hm)).trans_le hdepth
        rw [memberText, List.length_append, List.length_cons, List.length_cons] at hshort
        omega
      obtain ⟨cs, hblock⟩ :=
        exists_block_eq_cons '\x7b' '\x7d' level (members.map (memberText (level + 1)))
      have hread : bracketed _ _ (cs ++ rest) = _ :=
        bracketed_block (by decide) (by decide) hmembers hblock
      rw [hblock, List.cons_append]
      exact congrArg (Option.map _) hread

/-- The text of a value is a JSON text of that value, also where a line ends with it. -/
theorem ofText?_text_append (v : JsonValue) {spaces : String} (h : spaces.toList.all isSpace) :
    ofText? (v.text ++ spaces) = some v := by
  have hchars : (v.text ++ spaces).toList = textAt 0 v ++ spaces.toList := by
    rw [String.toList_append, text, String.toList_ofList]
  have hdepth : (textAt 0 v).length ≤ (v.text ++ spaces).length := by
    rw [← String.length_toList, hchars, List.length_append]
    exact Nat.le_add_right _ _
  rw [ofText?, hchars, dropWhile_textAt_append, value_textAt v hdepth (closed_of_all_isSpace h)]
  dsimp only [Option.bind_eq_bind, Option.bind_some]
  rw [h]
  rfl

end NatBehavior.JsonValue
