import Mathlib.Data.List.Nodup
import NatBehavior.Proofs.Toml.Quoted
import NatBehavior.Proofs.Toml.Scalar
import NatBehavior.Toml.Document

/-! A document of sections is read back from its lines: each line on its own, then the statements
of the lines, then the tables that the statements enter. -/
namespace NatBehavior.Toml

variable {cs rest : List Char} {n : Nat}

/-! ### Values at the end of a line -/

/-- A text that is read as a value where a line ends behind it. -/
structure Written (text : List Char) (v : Value) : Prop where
  starts : ∀ c ∈ text.head?, isSpace c = false
  reads : ∀ rest, value nestingLimit (text ++ '\n' :: rest) = some (v, '\n' :: rest)

theorem value_zero (n : Nat) {c : Char} (hbracket : c ≠ '[') (hbrace : c ≠ '\x7b')
    (cs : List Char) : value n (c :: cs) = value 0 (c :: cs) := by
  cases n with
  | zero => rfl
  | succ n => simp [value, hbracket, hbrace]

theorem written_quote (s : String) : Written (quote s) (.string s) := by
  obtain ⟨q, cs, hquote⟩ := exists_quote_eq s
  constructor
  · rw [hquote]
    intro c hc
    obtain rfl := Option.some.inj hc
    cases q <;> rfl
  · intro rest
    have hread : quotedString (quote s ++ '\n' :: rest) = some (s, '\n' :: rest) :=
      quotedString_quote s (by simp) (by simp)
    rw [hquote, List.cons_append] at hread ⊢
    rw [value_zero _ (by cases q <;> decide) (by cases q <;> decide), value, hread]

theorem ne_of_isBareKeyChar {c d : Char} (hc : isBareKeyChar c) (hd : isBareKeyChar d = false) :
    c ≠ d := by
  rintro rfl
  exact Bool.false_ne_true (hd.symm.trans hc)

theorem isSpace_of_isBareKeyChar {c : Char} (hc : isBareKeyChar c) : isSpace c = false := by
  have hspace : c ≠ ' ' := ne_of_isBareKeyChar hc (by decide)
  have htab : c ≠ '\t' := ne_of_isBareKeyChar hc (by decide)
  simp [isSpace, hspace, htab]

theorem written_toDigits (hn : n < 9223372036854775808) :
    Written (Nat.toDigits 10 n) (.integer n) := by
  have hbare : ∀ c ∈ Nat.toDigits 10 n, isBareKeyChar c := by
    intro c hc
    simp [isBareKeyChar, Char.isAlphanum, Numeral.isDigit_of_mem_toDigits hc]
  constructor
  · exact fun c hc => isSpace_of_isBareKeyChar (hbare c (List.mem_of_mem_head? hc))
  · intro rest
    have hscalar := scalar_toDigits hn rest
    obtain ⟨c, cs, hcons⟩ := List.exists_cons_of_ne_nil (Nat.toDigits_ne_nil (n := n) (b := 10))
    have hc := hbare c (hcons ▸ List.mem_cons_self)
    rw [hcons, List.cons_append] at hscalar ⊢
    rw [value_zero _ (ne_of_isBareKeyChar hc (by decide)) (ne_of_isBareKeyChar hc (by decide)),
      value, quotedString_eq_none (ne_of_isBareKeyChar hc (by decide))
        (ne_of_isBareKeyChar hc (by decide))]
    exact hscalar

/-! ### Lines -/

/-- A name that needs no quotes as a key. -/
structure IsBare (name : String) : Prop where
  ne_nil : name.toList ≠ []
  chars : ∀ c ∈ name.toList, isBareKeyChar c

instance (name : String) : Decidable (IsBare name) :=
  decidable_of_iff (name.toList ≠ [] ∧ name.toList.all isBareKeyChar)
    ⟨fun h => ⟨h.1, List.all_eq_true.mp h.2⟩, fun h => ⟨h.ne_nil, List.all_eq_true.mpr h.chars⟩⟩

theorem skipSpace_cons {c : Char} (h : isSpace c = false) (cs : List Char) :
    skipSpace (c :: cs) = c :: cs :=
  List.dropWhile_cons_of_neg (by simp [h])

variable {name : String}

theorem IsBare.exists_cons (h : IsBare name) (rest : List Char) :
    ∃ c cs, name.toList ++ rest = c :: cs ∧ isBareKeyChar c := by
  obtain ⟨c, cs, hname⟩ := List.exists_cons_of_ne_nil h.ne_nil
  exact ⟨c, cs ++ rest, by rw [hname]; rfl, h.chars c (hname ▸ List.mem_cons_self)⟩

theorem bareKey_append {c : Char} (h : IsBare name) (hc : isBareKeyChar c = false)
    (cs : List Char) : bareKey (name.toList ++ c :: cs) = some (name, c :: cs) := by
  have hfront : (name.toList ++ c :: cs).takeWhile isBareKeyChar = name.toList := by
    rw [List.takeWhile_append_of_pos h.chars, List.takeWhile_cons_of_neg (by simp [hc]),
      List.append_nil]
  have hback : (name.toList ++ c :: cs).dropWhile isBareKeyChar = c :: cs := by
    rw [List.dropWhile_append_of_pos h.chars, List.dropWhile_cons_of_neg (by simp [hc])]
  simp [bareKey, hfront, hback, h.ne_nil]

theorem key_append {c : Char} (h : IsBare name) (hc : isBareKeyChar c = false) (cs : List Char) :
    key (name.toList ++ c :: cs) = some (name, skipSpace (c :: cs)) := by
  have hread := bareKey_append h hc cs
  obtain ⟨d, ds, hcons, hd⟩ := h.exists_cons (c :: cs)
  rw [hcons] at hread ⊢
  rw [key, skipSpace_cons (isSpace_of_isBareKeyChar hd)]
  dsimp only
  rw [lineString_eq_none .basic (ne_of_isBareKeyChar hd (by decide)),
    lineString_eq_none .literal (ne_of_isBareKeyChar hd (by decide)), hread]
  rfl

theorem keyPath_append {c d : Char} (room : Nat) (h : IsBare name) (hc : isBareKeyChar c = false)
    {cs tail : List Char} (hskip : skipSpace (c :: cs) = d :: tail) (hd : d ≠ '.') :
    keyPath (room + 1) (name.toList ++ c :: cs) = some ([name], d :: tail) := by
  rw [keyPath, key_append h hc, hskip]
  split
  · rename_i heq
    cases heq
  · rename_i heq
    cases heq
    exact absurd rfl hd
  · rename_i heq
    cases heq
    rfl

theorem statement_header (h : IsBare name) (rest : List Char) :
    statement ('[' :: (name.toList ++ ']' :: rest)) = some (.table [name], rest) := by
  have hpath : keyPath nestingLimit (name.toList ++ ']' :: rest) = some ([name], ']' :: rest) :=
    keyPath_append 78 h (by decide) (skipSpace_cons (by decide) rest) (by decide)
  obtain ⟨c, cs, hcons, hc⟩ := h.exists_cons (']' :: rest)
  have hbracket : c ≠ '[' := ne_of_isBareKeyChar hc (by decide)
  rw [hcons] at hpath ⊢
  simp [statement, hbracket, hpath]

theorem statement_assignment (h : IsBare name) {text : List Char} {v : Value}
    (htext : Written text v) (rest : List Char) :
    statement (name.toList ++ (' ' :: '=' :: ' ' :: (text ++ '\n' :: rest))) =
      some (.assign [name] v, '\n' :: rest) := by
  have hpath : keyPath nestingLimit (name.toList ++ (' ' :: '=' :: ' ' :: (text ++ '\n' :: rest))) =
      some ([name], '=' :: ' ' :: (text ++ '\n' :: rest)) :=
    keyPath_append 78 h (by decide) rfl (by decide)
  have hskip : skipSpace (' ' :: (text ++ '\n' :: rest)) = text ++ '\n' :: rest := by
    change skipSpace (text ++ '\n' :: rest) = _
    cases text with
    | nil => rfl
    | cons c cs => exact skipSpace_cons (htext.starts c rfl) _
  have hassign : assignment (value nestingLimit)
      (name.toList ++ (' ' :: '=' :: ' ' :: (text ++ '\n' :: rest))) =
        some (([name], v), '\n' :: rest) := by
    simp [assignment, hpath, hskip, htext.reads]
  obtain ⟨c, cs, hcons, hc⟩ := h.exists_cons (' ' :: '=' :: ' ' :: (text ++ '\n' :: rest))
  have hbracket : c ≠ '[' := ne_of_isBareKeyChar hc (by decide)
  rw [hcons] at hassign ⊢
  simp [statement, hbracket, hassign]

variable {bound : Nat}

theorem statements_nil (bound : Nat) : statements bound [] = some [] := by
  cases bound <;> rfl

theorem statements_succ_cons {c : Char} (hspace : isSpace c = false) (cs : List Char) :
    statements (bound + 1) (c :: cs) =
      if c = '#' ∨ c = '\n' ∨ c = '\r' then (lineEnd (c :: cs)).bind (statements bound)
      else do
        let (s, rest) ← statement (c :: cs)
        let rest ← lineEnd rest
        return s :: (← statements bound rest) := by
  rw [statements.eq_def]
  dsimp only
  rw [skipSpace_cons hspace]

theorem statements_newline (rest : List Char) :
    statements (bound + 1) ('\n' :: rest) = statements bound rest := by
  rw [statements_succ_cons (by decide), if_pos (.inr (.inl rfl))]
  rfl

/-- A comment is passed over to the end of its line. -/
theorem statements_comment {comment : List Char} (h : ∀ c ∈ comment, isPlain c) (rest : List Char) :
    statements (bound + 1) ('#' :: (comment ++ '\n' :: rest)) = statements bound rest := by
  have hskip : skipComment (comment ++ '\n' :: rest) = '\n' :: rest := by
    rw [skipComment, List.dropWhile_append_of_pos h, List.dropWhile_cons_of_neg (by decide)]
  have hend : lineEnd ('#' :: (comment ++ '\n' :: rest)) = some rest := by
    rw [lineEnd, skipSpace_cons (by decide)]
    simp only [hskip]
    rfl
  rw [statements_succ_cons (by decide), if_pos (.inl rfl), hend]
  rfl

theorem statements_cons {c : Char} {s : Statement} (hspace : isSpace c = false) (hcomment : c ≠ '#')
    (hbreak : c ≠ '\n') (hreturn : c ≠ '\r') (h : statement (c :: cs) = some (s, '\n' :: rest)) :
    statements (bound + 1) (c :: cs) = (statements bound rest).map (s :: ·) := by
  have hend : lineEnd ('\n' :: rest) = some rest := rfl
  rw [statements_succ_cons hspace, if_neg (by tauto), h]
  dsimp only [Option.bind_eq_bind, Option.bind_some]
  rw [hend, Option.bind_some]
  cases statements bound rest <;> rfl

theorem statements_header (h : IsBare name) (rest : List Char) :
    statements (bound + 1) ('[' :: (name.toList ++ ']' :: '\n' :: rest)) =
      (statements bound rest).map (.table [name] :: ·) :=
  statements_cons rfl (by decide) (by decide) (by decide) (statement_header h ('\n' :: rest))

theorem statements_assignment (h : IsBare name) {text : List Char} {v : Value}
    (htext : Written text v) (rest : List Char) :
    statements (bound + 1) (name.toList ++ (' ' :: '=' :: ' ' :: (text ++ '\n' :: rest))) =
      (statements bound rest).map (.assign [name] v :: ·) := by
  have hread := statement_assignment h htext rest
  obtain ⟨c, cs, hcons, hc⟩ := h.exists_cons (' ' :: '=' :: ' ' :: (text ++ '\n' :: rest))
  rw [hcons] at hread ⊢
  exact statements_cons (isSpace_of_isBareKeyChar hc) (ne_of_isBareKeyChar hc (by decide))
    (ne_of_isBareKeyChar hc (by decide)) (ne_of_isBareKeyChar hc (by decide)) hread

/-- The statements that a text is read as, under every bound that its length meets. -/
def Stated (cs : List Char) (list : List Statement) : Prop :=
  ∀ bound, cs.length ≤ bound → statements bound cs = some list

variable {list : List Statement}

theorem stated_nil : Stated [] [] := fun bound _ => statements_nil bound

theorem Stated.of_line {f : List Statement → List Statement} (h : Stated rest list)
    (hline : ∀ bound, statements (bound + 1) cs = (statements bound rest).map f)
    (hlength : rest.length < cs.length) : Stated cs (f list) := by
  intro bound hbound
  -- a line takes one off the bound and at least one character off the text
  obtain ⟨b, rfl⟩ := Nat.exists_eq_add_of_lt (Nat.lt_of_lt_of_le hlength hbound)
  rw [hline, h _ (Nat.le_add_right _ _)]
  rfl

theorem Stated.newline (h : Stated rest list) : Stated ('\n' :: rest) list :=
  h.of_line (f := id) (fun _ => by rw [statements_newline, Option.map_id]; rfl) (by simp)

theorem Stated.comment (h : Stated rest list) {comment : List Char}
    (hplain : ∀ c ∈ comment, isPlain c) : Stated ('#' :: (comment ++ '\n' :: rest)) list :=
  h.of_line (f := id) (fun _ => by rw [statements_comment hplain, Option.map_id]; rfl)
    (by simp; omega)

theorem Stated.header (h : Stated rest list) (hname : IsBare name) :
    Stated ('[' :: (name.toList ++ ']' :: '\n' :: rest)) (.table [name] :: list) :=
  h.of_line (fun _ => statements_header hname rest) (by simp; omega)

theorem Stated.assignment (h : Stated rest list) (hname : IsBare name) {text : List Char}
    {v : Value} (htext : Written text v) :
    Stated (name.toList ++ (' ' :: '=' :: ' ' :: (text ++ '\n' :: rest)))
      (.assign [name] v :: list) :=
  h.of_line (fun _ => statements_assignment hname htext rest) (by simp; omega)

/-! ### Sections -/

/-- The statements of a table whose fields are plain. -/
def sectionStatements (table : String × List (String × Value)) : List Statement :=
  .table [table.1] :: table.2.map fun field => .assign [field.1] field.2

/-- The nodes of such a table. -/
def fieldNodes (fields : List (String × Value)) : Entries :=
  fields.map fun field => (field.1, .value field.2)

def sectionNodes (tables : List (String × List (String × Value))) : Entries :=
  tables.map fun table => (table.1, .table .header (fieldNodes table.2))

theorem map_fst_fieldNodes (fields : List (String × Value)) :
    (fieldNodes fields).map Prod.fst = fields.map Prod.fst := by
  rw [fieldNodes, List.map_map]
  rfl

theorem map_fst_sectionNodes (tables : List (String × List (String × Value))) :
    (sectionNodes tables).map Prod.fst = tables.map Prod.fst := by
  rw [sectionNodes, List.map_map]
  rfl

theorem toValues_eq_map (entries : Entries) :
    Entries.toValues entries = entries.map fun entry => (entry.1, entry.2.toValue) := by
  induction entries with
  | nil => rfl
  | cons entry entries ih =>
    rw [Entries.toValues, ih]
    rfl

theorem toValues_fieldNodes (fields : List (String × Value)) :
    Entries.toValues (fieldNodes fields) = fields := by
  rw [toValues_eq_map, fieldNodes, List.map_map]
  exact List.map_id fields

theorem toValues_sectionNodes (tables : List (String × List (String × Value))) :
    Entries.toValues (sectionNodes tables) = tables.map fun table => (table.1, .table table.2) := by
  rw [toValues_eq_map, sectionNodes, List.map_map]
  refine List.map_congr_left fun table _ => ?_
  simp [Node.toValue, toValues_fieldNodes]

variable {entries : Entries}

theorem lookup_eq_none (h : name ∉ entries.map Prod.fst) : entries.lookup name = none :=
  List.lookup_eq_none_iff.mpr fun entry hentry => by
    simpa using fun heq : name = entry.1 => h (heq ▸ List.mem_map_of_mem hentry)

theorem lookup_append_singleton (h : name ∉ entries.map Prod.fst) (node : Node) :
    (entries ++ [(name, node)]).lookup name = some node := by
  rw [List.lookup_append, lookup_eq_none h]
  simp

theorem replace_append_singleton (h : name ∉ entries.map Prod.fst) (node node' : Node) :
    Entries.replace name node' (entries ++ [(name, node)]) = entries ++ [(name, node')] := by
  have hkeep : ∀ entry ∈ entries,
      (if entry.1 = name then (name, node') else entry) = entry := fun entry hentry =>
    if_neg fun heq : entry.1 = name => h (heq ▸ List.mem_map_of_mem hentry)
  rw [Entries.replace, List.map_append, List.map_congr_left hkeep]
  simp

theorem not_mem_of_nodup_map {α : Type} {before after : List (String × α)} {entry : String × α}
    (h : ((before ++ entry :: after).map Prod.fst).Nodup) : entry.1 ∉ before.map Prod.fst := by
  rw [List.map_append, List.map_cons, List.nodup_middle, List.nodup_cons] at h
  exact fun hmem => h.1 (List.mem_append_left _ hmem)

/-- Entering the fields of the table in force. -/
theorem foldlM_enter_fields (h : name ∉ entries.map Prod.fst) (fields more : List (String × Value))
    (hdistinct : ((fields ++ more).map Prod.fst).Nodup) :
    (more.map fun field => Statement.assign [field.1] field.2).foldlM Draft.enter
        ⟨entries ++ [(name, .table .header (fieldNodes fields))], [name]⟩ =
      some ⟨entries ++ [(name, .table .header (fieldNodes (fields ++ more)))], [name]⟩ := by
  induction more generalizing fields with
  | nil =>
    rw [List.append_nil]
    rfl
  | cons field more ih =>
    have hmissing : (fieldNodes fields).lookup field.1 = none := by
      refine lookup_eq_none ?_
      rw [map_fst_fieldNodes]
      exact not_mem_of_nodup_map hdistinct
    have hstep : Draft.enter ⟨entries ++ [(name, .table .header (fieldNodes fields))], [name]⟩
        (.assign [field.1] field.2) =
          some ⟨entries ++ [(name, .table .header (fieldNodes (fields ++ [field])))], [name]⟩ := by
      simp only [Draft.enter, Entries.atHeader, lookup_append_singleton h, Entries.assign, hmissing,
        Option.map_some, replace_append_singleton h]
      simp [fieldNodes]
    have hmore := ih (fields ++ [field]) (by simpa using hdistinct)
    rw [List.map_cons, List.foldlM_cons, hstep]
    simpa using hmore

/-- Entering whole tables behind those that are there. -/
theorem exists_foldlM_enter_sections (done tables : List (String × List (String × Value)))
    (hnames : ((done ++ tables).map Prod.fst).Nodup)
    (hfields : ∀ table ∈ tables, (table.2.map Prod.fst).Nodup) (header : List String) :
    ∃ header', (tables.flatMap sectionStatements).foldlM Draft.enter ⟨sectionNodes done, header⟩ =
      some ⟨sectionNodes (done ++ tables), header'⟩ := by
  induction tables generalizing done header with
  | nil => exact ⟨header, by rw [List.append_nil]; rfl⟩
  | cons table tables ih =>
    rw [List.forall_mem_cons] at hfields
    have hmissing : table.1 ∉ (sectionNodes done).map Prod.fst := by
      rw [map_fst_sectionNodes]
      exact not_mem_of_nodup_map hnames
    have hnodes : sectionNodes done ++ [(table.1, .table .header (fieldNodes table.2))] =
        sectionNodes (done ++ [table]) := by
      rw [sectionNodes, sectionNodes, List.map_append]
      rfl
    have hopen : Draft.enter ⟨sectionNodes done, header⟩ (.table [table.1]) =
        some ⟨sectionNodes done ++ [(table.1, .table .header (fieldNodes []))], [table.1]⟩ := by
      simp [Draft.enter, Draft.openAt, Entries.atHeader, Entries.openTable, lookup_eq_none hmissing,
        fieldNodes]
    have hassigned := foldlM_enter_fields hmissing [] table.2 hfields.1
    rw [List.nil_append, hnodes] at hassigned
    obtain ⟨header', hmore⟩ := ih (done ++ [table]) (by simpa using hnames) hfields.2 [table.1]
    refine ⟨header', ?_⟩
    rw [List.append_assoc] at hmore
    rw [List.flatMap_cons, List.foldlM_append, sectionStatements, List.foldlM_cons, hopen,
      Option.bind_eq_bind, Option.bind_some, hassigned, Option.bind_some]
    exact hmore

theorem ofStatements?_sections (tables : List (String × List (String × Value)))
    (hnames : (tables.map Prod.fst).Nodup)
    (hfields : ∀ table ∈ tables, (table.2.map Prod.fst).Nodup) :
    ofStatements? (tables.flatMap sectionStatements) =
      some (tables.map fun table => (table.1, .table table.2)) := by
  obtain ⟨header, hentered⟩ := exists_foldlM_enter_sections [] tables hnames hfields []
  have hstart : sectionNodes [] = [] := rfl
  rw [hstart] at hentered
  rw [ofStatements?, hentered, Option.map_some, List.nil_append, toValues_sectionNodes]

theorem document?_of_stated (h : Stated cs list) (hmark : cs.head? ≠ some '\uFEFF') :
    document? (String.ofList cs) = ofStatements? list := by
  have hread := h cs.length (Nat.le_refl _)
  unfold document?
  rw [String.toList_ofList]
  split
  · exact absurd rfl hmark
  · dsimp only
    rw [hread]
    rfl

end NatBehavior.Toml
