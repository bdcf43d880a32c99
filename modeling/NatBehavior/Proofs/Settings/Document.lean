import NatBehavior.CommandLine.Program
import NatBehavior.Proofs.Text.Utf8
import NatBehavior.Proofs.Toml.Document

/-! Settings and their documents. Settings can be written exactly where their numbers fit the
integers of a document, which holds of all that are read, and what is written is read back as the
same settings, also below the comment that the program shows them under. -/
namespace NatBehavior.Settings

open Toml (Value Statement IsBare Stated Written)

variable {s : Settings} {cs rest : List Char} {list : List Statement}

/-! ### Writing -/

/-- What a shown value is written as. -/
def Shown.form : Shown → List Char
  | .text s => Toml.quote s
  | .number n => Nat.toDigits 10 n

def Shown.value : Shown → Value
  | .text s => .string s
  | .number n => .integer n

def Shown.Fits : Shown → Prop
  | .text _ => True
  | .number n => n ≤ integerLimit

theorem Shown.written {shown : Shown} (h : shown.Fits) : Written shown.form shown.value := by
  cases shown with
  | text s => exact Toml.written_quote s
  | number n => exact Toml.written_toDigits (Nat.lt_succ_of_le h)

theorem fieldText_append (field : String × Shown) (rest : List Char) :
    fieldText field ++ rest =
      field.1.toList ++ (' ' :: '=' :: ' ' :: (field.2.form ++ '\n' :: rest)) := by
  obtain ⟨name, shown⟩ := field
  cases shown <;> simp [fieldText, Shown.form]

theorem stated_fields {fields : List (String × Shown)} (hnames : ∀ field ∈ fields, IsBare field.1)
    (hfits : ∀ field ∈ fields, field.2.Fits) (h : Stated rest list) :
    Stated (fields.flatMap fieldText ++ rest)
      (fields.map (fun field => .assign [field.1] field.2.value) ++ list) := by
  induction fields with
  | nil => exact h
  | cons field fields ih =>
    rw [List.forall_mem_cons] at hnames hfits
    rw [List.flatMap_cons, List.append_assoc, fieldText_append]
    exact (ih hnames.2 hfits.2).assignment hnames.1 (Shown.written hfits.1)

/-- The values of a section. -/
def sectionValues (table : String × List (String × Shown)) : String × List (String × Value) :=
  (table.1, table.2.map fun field => (field.1, field.2.value))

theorem stated_section {table : String × List (String × Shown)} (hname : IsBare table.1)
    (hnames : ∀ field ∈ table.2, IsBare field.1) (hfits : ∀ field ∈ table.2, field.2.Fits)
    (h : Stated rest list) :
    Stated (sectionText table ++ rest) (Toml.sectionStatements (sectionValues table) ++ list) := by
  have hread := (stated_fields hnames hfits h).header hname
  obtain ⟨name, fields⟩ := table
  simpa [sectionText, Toml.sectionStatements, sectionValues, Function.comp_def] using hread

theorem stated_sections {tables : List (String × List (String × Shown))}
    (hnames : ∀ table ∈ tables, IsBare table.1 ∧ ∀ field ∈ table.2, IsBare field.1)
    (hfits : ∀ table ∈ tables, ∀ field ∈ table.2, field.2.Fits) :
    Stated (['\n'].intercalate (tables.map sectionText))
      ((tables.map sectionValues).flatMap Toml.sectionStatements) := by
  induction tables with
  | nil => exact Toml.stated_nil
  | cons table tables ih =>
    rw [List.forall_mem_cons] at hnames hfits
    have hmore := ih hnames.2 hfits.2
    cases tables with
    | nil =>
      have hread := stated_section hnames.1.1 hnames.1.2 hfits.1 Toml.stated_nil
      simpa using hread
    | cons table' tables =>
      have hread := stated_section hnames.1.1 hnames.1.2 hfits.1 hmore.newline
      rw [List.map_cons, List.map_cons, List.intercalate_cons_cons, List.append_assoc]
      exact hread

/-- Names of sections and their fields. -/
def names (s : Settings) : List String :=
  s.sections.flatMap fun table => table.1 :: table.2.map Prod.fst

theorem isBare_of_mem_sections {table : String × List (String × Shown)} (h : table ∈ s.sections) :
    IsBare table.1 ∧ ∀ field ∈ table.2, IsBare field.1 := by
  have hall : ∀ name ∈ s.names, IsBare name := by
    change ∀ name ∈ names {}, IsBare name
    decide +kernel
  refine ⟨hall _ ?_, fun field hfield => hall _ ?_⟩
  · exact List.mem_flatMap.mpr ⟨table, h, List.mem_cons_self⟩
  · exact List.mem_flatMap.mpr ⟨table, h, List.mem_cons_of_mem _ (List.mem_map_of_mem hfield)⟩

theorem nodup_sections (s : Settings) : (s.sections.map Prod.fst).Nodup := by
  change ((sections {}).map Prod.fst).Nodup
  decide

theorem nodup_fields {table : String × List (String × Shown)} (h : table ∈ s.sections) :
    (table.2.map Prod.fst).Nodup := by
  have hall : ∀ fields ∈ s.sections.map (fun table => table.2.map Prod.fst), fields.Nodup := by
    change ∀ fields ∈ (sections {}).map (fun table => table.2.map Prod.fst), fields.Nodup
    decide
  exact hall _ (List.mem_map_of_mem h)

/-- Whether each number is an integer of documents. -/
structure Representable (s : Settings) : Prop where
  initial : s.initialRtoMs.toNat ≤ integerLimit
  longest : s.maxRtoMs.toNat ≤ integerLimit
  deadline : s.deadlineSecs.toNat ≤ integerLimit

theorem Representable.fits (h : s.Representable) {table : String × List (String × Shown)}
    (htable : table ∈ s.sections) {field : String × Shown} (hfield : field ∈ table.2) :
    field.2.Fits := by
  have htimes : s.maxTransmissions.toNat ≤ integerLimit :=
    Nat.le_trans (Nat.le_of_lt s.maxTransmissions.toNat_lt) (by decide)
  have hall : ∀ table ∈ s.sections, ∀ field ∈ table.2, field.2.Fits := by
    simp only [sections, List.forall_mem_cons, List.not_mem_nil, IsEmpty.forall_iff, implies_true,
      Shown.Fits, h.initial, h.longest, h.deadline, htimes, and_self]
  exact hall table htable field hfield

/-- The characters of the settings' document. -/
def documentText (s : Settings) : List Char := ['\n'].intercalate (s.sections.map sectionText)

theorem toToml?_eq_some_iff {text : String} :
    s.toToml? = some text ↔ s.Representable ∧ text = String.ofList s.documentText := by
  unfold toToml?
  split_ifs with hlimits
  · have hrepresentable : s.Representable := ⟨hlimits.1, hlimits.2.1, hlimits.2.2⟩
    simp [documentText, hrepresentable, eq_comm]
  · refine iff_of_false nofun fun h => hlimits ?_
    exact ⟨h.1.initial, h.1.longest, h.1.deadline⟩

/-- The values of the settings' document. -/
def document (s : Settings) : List (String × Value) :=
  (s.sections.map sectionValues).map fun table => (table.1, .table table.2)

theorem number?_integer {limit default n : Nat} (h : n ≤ limit) :
    number? limit default (some (.integer n)) = some n := by
  simp [number?, h]

theorem ofDocument?_document (h : s.Representable) : ofDocument? s.document = some s := by
  have htimes : s.maxTransmissions.toNat ≤ 4294967295 :=
    Nat.le_of_lt_succ s.maxTransmissions.toNat_lt
  simp [ofDocument?, document, sections, sectionValues, fieldsOf?, sectionFields?, List.lookup_cons,
    Shown.value, text?, number?_integer, h.initial, h.longest, h.deadline, htimes]

theorem ofToml?_of_stated (h : s.Representable) (hmark : cs.head? ≠ some '\uFEFF')
    (hstated : Stated cs ((s.sections.map sectionValues).flatMap Toml.sectionStatements)) :
    ofToml? (String.ofList cs) = some s := by
  have hnames : ((s.sections.map sectionValues).map Prod.fst).Nodup := by
    rw [List.map_map]
    exact nodup_sections s
  have hfields : ∀ table ∈ s.sections.map sectionValues, (table.2.map Prod.fst).Nodup := by
    refine List.forall_mem_map.mpr fun table htable => ?_
    rw [sectionValues, List.map_map]
    exact nodup_fields htable
  rw [ofToml?, Toml.document?_of_stated hstated hmark, Toml.ofStatements?_sections _ hnames hfields]
  exact ofDocument?_document h

theorem stated_documentText (h : s.Representable) :
    Stated s.documentText ((s.sections.map sectionValues).flatMap Toml.sectionStatements) :=
  stated_sections (fun _ => isBare_of_mem_sections) fun _ htable _ => h.fits htable

theorem ofToml?_documentText (h : s.Representable) :
    ofToml? (String.ofList s.documentText) = some s :=
  ofToml?_of_stated h (by simp [documentText, sections, sectionText]) (stated_documentText h)

/-- The comment that the program shows settings under is passed over. -/
theorem ofToml?_commented (h : s.Representable) {path : String}
    (hpath : ∀ c ∈ path.toList, Toml.isPlain c) :
    ofToml? ("# " ++ path ++ "\n" ++ String.ofList s.documentText) = some s := by
  have hcomment : ∀ c ∈ ' ' :: path.toList, Toml.isPlain c :=
    List.forall_mem_cons.mpr ⟨by decide, hpath⟩
  have htext : "# " ++ path ++ "\n" ++ String.ofList s.documentText =
      String.ofList ('#' :: (' ' :: path.toList ++ '\n' :: s.documentText)) := by
    rw [← String.toList_inj]
    simp
  rw [htext]
  exact ofToml?_of_stated h (by simp) ((stated_documentText h).comment hcomment)

/-! ### Reading -/

theorem le_of_number? {limit default n : Nat} {v : Option Value} (hdefault : default ≤ limit)
    (h : number? limit default v = some n) : n ≤ limit := by
  unfold number? at h
  split at h
  · exact Option.some.inj h ▸ hdefault
  · split_ifs at h with hbounds
    obtain rfl := Option.some.inj h
    omega
  · cases h

/-- Whatever is read can be written. -/
theorem Representable.of_ofToml? {text : String} (h : ofToml? text = some s) : s.Representable := by
  obtain ⟨document, -, h⟩ := Option.bind_eq_some_iff.mp h
  unfold ofDocument? at h
  -- four sections and three texts come before the first number
  iterate 7 obtain ⟨_, -, h⟩ := Option.bind_eq_some_iff.mp h
  obtain ⟨initial, hinitial, h⟩ := Option.bind_eq_some_iff.mp h
  obtain ⟨longest, hlongest, h⟩ := Option.bind_eq_some_iff.mp h
  obtain ⟨_, -, h⟩ := Option.bind_eq_some_iff.mp h
  obtain ⟨deadline, hdeadline, h⟩ := Option.bind_eq_some_iff.mp h
  obtain ⟨_, -, h⟩ := Option.bind_eq_some_iff.mp h
  obtain rfl := Option.some.inj h
  have hword : ∀ n : Nat, n ≤ integerLimit → n.toUInt64.toNat ≤ integerLimit := by
    intro n hn
    exact Nat.le_trans (Nat.mod_le n _) hn
  exact ⟨hword _ (le_of_number? (by decide) hinitial), hword _ (le_of_number? (by decide) hlongest),
    hword _ (le_of_number? (by decide) hdeadline)⟩

open CommandLine (settingsOfFile configOutput)

theorem settingsOfFile_eq_ok_iff {file : Except IoError Bytes} :
    settingsOfFile file = .ok s ↔
      ∃ bytes text, file = .ok bytes ∧ Utf8.decode? bytes = some text ∧ ofToml? text = some s := by
  unfold settingsOfFile
  constructor
  · intro h
    split at h
    · cases h
    · rename_i bytes
      split at h
      · cases h
      · rename_i text hdecode
        split at h
        · cases h
        · rename_i read hread
          obtain rfl := Except.ok.inj h
          exact ⟨bytes, text, rfl, hdecode, hread⟩
  · rintro ⟨bytes, text, rfl, hdecode, hread⟩
    simp only [hdecode, hread]

/-- What is written is loaded as it is read. -/
theorem settingsOfFile_encode_eq_ok {text : String} (h : ofToml? text = some s) :
    settingsOfFile (.ok (Utf8.encode text)) = .ok s :=
  settingsOfFile_eq_ok_iff.mpr ⟨_, _, rfl, Utf8.decode?_encode text, h⟩

/-- Settings can be written exactly where their numbers are integers of documents, and are loaded
back from what was written, also as the program shows it. All settings that are loaded from a file
can be written, and are loaded back from the file that is written. -/
theorem toToml?_round_trip (s : Settings) :
    (s.toToml?.isSome ↔ s.initialRtoMs.toNat ≤ 2 ^ 63 - 1 ∧ s.maxRtoMs.toNat ≤ 2 ^ 63 - 1 ∧
      s.deadlineSecs.toNat ≤ 2 ^ 63 - 1) ∧
    (∀ text, s.toToml? = some text → ofToml? text = some s ∧
      settingsOfFile (.ok (Utf8.encode text)) = .ok s ∧
      ∀ path : String, (∀ c ∈ path.toList, Toml.isPlain c) →
        (configOutput path false s).exitCode = 0 ∧
        ofToml? (configOutput path false s).stdout = some s ∧
        settingsOfFile (.ok (Utf8.encode (configOutput path false s).stdout)) = .ok s) ∧
    ∀ file, settingsOfFile file = .ok s → ∃ text, s.toToml? = some text ∧
      settingsOfFile (.ok (Utf8.encode text)) = .ok s := by
  refine ⟨⟨?_, ?_⟩, ?_, ?_⟩
  · intro h
    obtain ⟨text, htext⟩ := Option.isSome_iff_exists.mp h
    have hrepresentable := (toToml?_eq_some_iff.mp htext).1
    exact ⟨hrepresentable.initial, hrepresentable.longest, hrepresentable.deadline⟩
  · rintro ⟨hinitial, hlongest, hdeadline⟩
    exact Option.isSome_iff_exists.mpr
      ⟨_, toToml?_eq_some_iff.mpr ⟨⟨hinitial, hlongest, hdeadline⟩, rfl⟩⟩
  · intro text htext
    obtain ⟨hrepresentable, rfl⟩ := toToml?_eq_some_iff.mp htext
    have hread := ofToml?_documentText hrepresentable
    refine ⟨hread, settingsOfFile_encode_eq_ok hread, fun path hpath => ?_⟩
    have hshown := ofToml?_commented hrepresentable hpath
    simp only [configOutput, htext, Bool.false_eq_true, if_false]
    exact ⟨trivial, hshown, settingsOfFile_encode_eq_ok hshown⟩
  · intro file hfile
    obtain ⟨-, text, -, -, hread⟩ := settingsOfFile_eq_ok_iff.mp hfile
    have hrepresentable := Representable.of_ofToml? hread
    exact ⟨_, toToml?_eq_some_iff.mpr ⟨hrepresentable, rfl⟩,
      settingsOfFile_encode_eq_ok (ofToml?_documentText hrepresentable)⟩

/-- Texts that take each of the written forms, and the settings of an empty file. -/
theorem toToml?_round_trip_quotes :
    let s : Settings := { server := "\x22\x22\x22\x27\x27\x27\r\n\\", bindAddress := "\n\x22\x27",
                          software := "\x22\\", logLevel := "\x22\x27\x27" }
    (∃ text, s.toToml? = some text ∧ ofToml? text = some s ∧
      settingsOfFile (.ok (Utf8.encode text)) = .ok s ∧
      ofToml? (configOutput "/home/user/config.toml" false s).stdout = some s) ∧
    settingsOfFile (.ok []) = .ok {} ∧ ∃ text, toToml? {} = some text ∧
      settingsOfFile (.ok (Utf8.encode text)) = .ok {} := by
  intro s
  obtain ⟨hwritten, hread, -⟩ := toToml?_round_trip s
  obtain ⟨text, htext⟩ := Option.isSome_iff_exists.mp (hwritten.mpr (by decide))
  obtain ⟨hback, hloaded, hshown⟩ := hread text htext
  have hfile : settingsOfFile (.ok []) = .ok {} := by decide +kernel
  have hpath : ∀ c ∈ "/home/user/config.toml".toList, Toml.isPlain c :=
    List.all_eq_true.mp (by decide)
  exact ⟨⟨text, htext, hback, hloaded, (hshown _ hpath).2.1⟩, hfile,
    (toToml?_round_trip {}).2.2 _ hfile⟩

end NatBehavior.Settings
