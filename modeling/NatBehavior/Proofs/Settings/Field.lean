import Mathlib
import NatBehavior.Proofs.Settings.Document

/-! What a document means for the settings, field by field. A field is looked for in one place, by
name where its section is a table and by position where it is an array. It takes the value that is
found there, which has to be one of its own type, and keeps its default where none is found. Nothing
else of a document matters. -/
namespace NatBehavior.Settings

open Toml (Value)
open CommandLine (settingsOfFile)

/-- The settings one by one. -/
inductive Field where
  | server
  | bindAddress
  | software
  | initialRto
  | maxRto
  | maxTransmissions
  | deadline
  | logLevel
deriving DecidableEq, Repr

/-- Where a field is looked for. -/
structure Spot where
  table : String
  place : Nat
  name : String

namespace Field

def spot : Field → Spot
  | server => ⟨"stun", 0, "server"⟩
  | bindAddress => ⟨"stun", 1, "bind_addr"⟩
  | software => ⟨"stun", 2, "software"⟩
  | initialRto => ⟨"retransmit", 0, "initial_rto_ms"⟩
  | maxRto => ⟨"retransmit", 1, "max_rto_ms"⟩
  | maxTransmissions => ⟨"retransmit", 2, "max_transmissions"⟩
  | deadline => ⟨"detect", 0, "deadline_secs"⟩
  | logLevel => ⟨"logging", 0, "level"⟩

/-- The largest number that a field takes; none where it takes texts. -/
def limit? : Field → Option Nat
  | server | bindAddress | software | logLevel => none
  | initialRto | maxRto | deadline => some (2 ^ 63 - 1)
  | maxTransmissions => some (2 ^ 32 - 1)

def of (s : Settings) : Field → Shown
  | server => .text s.server
  | bindAddress => .text s.bindAddress
  | software => .text s.software
  | initialRto => .number s.initialRtoMs.toNat
  | maxRto => .number s.maxRtoMs.toNat
  | maxTransmissions => .number s.maxTransmissions.toNat
  | deadline => .number s.deadlineSecs.toNat
  | logLevel => .text s.logLevel

end Field

/-! ### Values of fields -/

/-- The values of a type, numbers up to a limit or texts, and what each of them tells. -/
inductive Takes : (limit? : Option Nat) → Value → Shown → Prop
  | text (s : String) : Takes none (.string s) (.text s)
  | number (n : Nat) {limit : Nat} (h : n ≤ limit) : Takes (some limit) (.integer n) (.number n)

/-- What a field tells whose value is given, or is not. -/
def Tells (limit? : Option Nat) (default : Shown) : Option Value → Shown → Prop
  | none, shown => shown = default
  | some v, shown => Takes limit? v shown

section

variable {v : Option Value} {limit n default : Nat} {s text : String}

theorem text?_eq_some_iff : text? text v = some s ↔ Tells none (.text text) v (.text s) := by
  cases v with
  | none => simp [text?, Tells, eq_comm]
  | some v =>
    constructor
    · intro h
      cases v <;> cases h
      exact .text s
    · rintro ⟨⟩
      rfl

theorem number?_eq_some_iff :
    number? limit default v = some n ↔ Tells (some limit) (.number default) v (.number n) := by
  cases v with
  | none => simp [number?, Tells, eq_comm]
  | some v =>
    constructor
    · intro h
      cases v <;> try cases h
      rename_i i
      rw [number?] at h
      split_ifs at h with hbounds
      obtain rfl := Option.some.inj h
      have hi : i = (i.toNat : Int) := (Int.toNat_of_nonneg hbounds.1).symm
      rw [hi]
      exact .number i.toNat (by omega)
    · rintro (_ | ⟨_, hn⟩)
      exact number?_integer hn

theorem exists_text (h : ∀ given, v = some given → ∃ shown, Takes none given shown) :
    ∃ s, Tells none (.text text) v (.text s) := by
  cases v with
  | none => exact ⟨text, rfl⟩
  | some given =>
    obtain ⟨_, ⟨s⟩⟩ := h given rfl
    exact ⟨s, .text s⟩

theorem exists_number (h : ∀ given, v = some given → ∃ shown, Takes (some limit) given shown) :
    ∃ n, Tells (some limit) (.number default) v (.number n) := by
  cases v with
  | none => exact ⟨default, rfl⟩
  | some given =>
    obtain ⟨_, _ | ⟨n, hn⟩⟩ := h given rfl
    exact ⟨n, .number n hn⟩

end

/-! ### Sections -/

/-- What can hold fields. A date does, but holds none. -/
inductive IsSection : Value → Prop
  | table (entries : List (String × Value)) : IsSection (.table entries)
  | array (items : List Value) : IsSection (.array items)
  | date (text : String) : IsSection (.datetime text)

/-- The value at a position, or under a name, of a section. -/
def fieldIn? : Value → (place : Nat) → (name : String) → Option Value
  | .table entries, _, name => entries.lookup name
  | .array items, place, _ => items[place]?
  | _, _, _ => none

/-- The value that a document gives for a field. -/
def given? (document : List (String × Value)) (field : Field) : Option Value :=
  (document.lookup field.spot.table).bind (fieldIn? · field.spot.place field.spot.name)

variable {document : List (String × Value)} {s : Settings}

theorem sectionFields?_eq_some_iff {v : Value} {fields : Nat → String → Option Value} :
    sectionFields? v = some fields ↔ IsSection v ∧ fields = fieldIn? v := by
  constructor
  · intro h
    cases v <;> cases h
    · exact ⟨.date _, rfl⟩
    · exact ⟨.array _, rfl⟩
    · exact ⟨.table _, rfl⟩
  · rintro ⟨⟨⟩, rfl⟩ <;> rfl

theorem fieldsOf?_eq_some_iff {table : String} {fields : Nat → String → Option Value} :
    fieldsOf? document table = some fields ↔
      (∀ v, document.lookup table = some v → IsSection v) ∧
        fields = fun place name => (document.lookup table).bind (fieldIn? · place name) := by
  unfold fieldsOf?
  cases document.lookup table with
  | none => simp [eq_comm]
  | some v => simp [sectionFields?_eq_some_iff]

/-- A number within the limit of its field fits the word that holds it. -/
theorem tells_mod {default limit n bound : Nat} {v : Option Value} (hdefault : default ≤ limit)
    (hlimit : limit < bound) (h : number? limit default v = some n) :
    Tells (some limit) (.number default) v (.number (n % bound)) := by
  rw [Nat.mod_eq_of_lt (Nat.lt_of_le_of_lt (le_of_number? hdefault h) hlimit)]
  exact number?_eq_some_iff.mp h

/-- Where sections can hold fields and each field tells something, that is what is read. -/
theorem ofDocument?_of_tells {server bindAddress software level : String}
    {initial longest times deadline : Nat}
    (hsections : ∀ table ∈ ["stun", "retransmit", "detect", "logging"],
      ∀ v, document.lookup table = some v → IsSection v)
    (hserver : Tells none (Field.server.of {}) (given? document .server) (.text server))
    (hbindAddress : Tells none (Field.bindAddress.of {}) (given? document .bindAddress)
      (.text bindAddress))
    (hsoftware : Tells none (Field.software.of {}) (given? document .software) (.text software))
    (hinitial : Tells Field.initialRto.limit? (Field.initialRto.of {})
      (given? document .initialRto) (.number initial))
    (hlongest : Tells Field.maxRto.limit? (Field.maxRto.of {}) (given? document .maxRto)
      (.number longest))
    (htimes : Tells Field.maxTransmissions.limit? (Field.maxTransmissions.of {})
      (given? document .maxTransmissions) (.number times))
    (hdeadline : Tells Field.deadline.limit? (Field.deadline.of {}) (given? document .deadline)
      (.number deadline))
    (hlevel : Tells none (Field.logLevel.of {}) (given? document .logLevel) (.text level)) :
    ofDocument? document = some ⟨server, bindAddress, software, initial.toUInt64,
      longest.toUInt64, times.toUInt32, deadline.toUInt64, level⟩ := by
  simp only [List.forall_mem_cons] at hsections
  obtain ⟨hstun, hretransmit, hdetect, hlogging, -⟩ := hsections
  refine Option.bind_eq_some_iff.mpr ⟨_, fieldsOf?_eq_some_iff.mpr ⟨hstun, rfl⟩, ?_⟩
  refine Option.bind_eq_some_iff.mpr ⟨_, fieldsOf?_eq_some_iff.mpr ⟨hretransmit, rfl⟩, ?_⟩
  refine Option.bind_eq_some_iff.mpr ⟨_, fieldsOf?_eq_some_iff.mpr ⟨hdetect, rfl⟩, ?_⟩
  refine Option.bind_eq_some_iff.mpr ⟨_, fieldsOf?_eq_some_iff.mpr ⟨hlogging, rfl⟩, ?_⟩
  refine Option.bind_eq_some_iff.mpr ⟨_, text?_eq_some_iff.mpr hserver, ?_⟩
  refine Option.bind_eq_some_iff.mpr ⟨_, text?_eq_some_iff.mpr hbindAddress, ?_⟩
  refine Option.bind_eq_some_iff.mpr ⟨_, text?_eq_some_iff.mpr hsoftware, ?_⟩
  refine Option.bind_eq_some_iff.mpr ⟨_, number?_eq_some_iff.mpr hinitial, ?_⟩
  refine Option.bind_eq_some_iff.mpr ⟨_, number?_eq_some_iff.mpr hlongest, ?_⟩
  refine Option.bind_eq_some_iff.mpr ⟨_, number?_eq_some_iff.mpr htimes, ?_⟩
  refine Option.bind_eq_some_iff.mpr ⟨_, number?_eq_some_iff.mpr hdeadline, ?_⟩
  exact Option.bind_eq_some_iff.mpr ⟨_, text?_eq_some_iff.mpr hlevel, rfl⟩

theorem tells_of_ofDocument? (h : ofDocument? document = some s) :
    (∀ table ∈ ["stun", "retransmit", "detect", "logging"],
      ∀ v, document.lookup table = some v → IsSection v) ∧
    ∀ field : Field, Tells field.limit? (field.of {}) (given? document field) (field.of s) := by
  unfold ofDocument? at h
  obtain ⟨_, hread, h⟩ := Option.bind_eq_some_iff.mp h
  obtain ⟨hstun, rfl⟩ := fieldsOf?_eq_some_iff.mp hread
  obtain ⟨_, hread, h⟩ := Option.bind_eq_some_iff.mp h
  obtain ⟨hretransmit, rfl⟩ := fieldsOf?_eq_some_iff.mp hread
  obtain ⟨_, hread, h⟩ := Option.bind_eq_some_iff.mp h
  obtain ⟨hdetect, rfl⟩ := fieldsOf?_eq_some_iff.mp hread
  obtain ⟨_, hread, h⟩ := Option.bind_eq_some_iff.mp h
  obtain ⟨hlogging, rfl⟩ := fieldsOf?_eq_some_iff.mp hread
  obtain ⟨server, hserver, h⟩ := Option.bind_eq_some_iff.mp h
  obtain ⟨bindAddress, hbindAddress, h⟩ := Option.bind_eq_some_iff.mp h
  obtain ⟨software, hsoftware, h⟩ := Option.bind_eq_some_iff.mp h
  obtain ⟨initial, hinitial, h⟩ := Option.bind_eq_some_iff.mp h
  obtain ⟨longest, hlongest, h⟩ := Option.bind_eq_some_iff.mp h
  obtain ⟨times, htimes, h⟩ := Option.bind_eq_some_iff.mp h
  obtain ⟨deadline, hdeadline, h⟩ := Option.bind_eq_some_iff.mp h
  obtain ⟨level, hlevel, h⟩ := Option.bind_eq_some_iff.mp h
  obtain rfl := Option.some.inj h
  constructor
  · simp only [List.forall_mem_cons]
    exact ⟨hstun, hretransmit, hdetect, hlogging, nofun⟩
  · intro field
    cases field with
    | server => exact text?_eq_some_iff.mp hserver
    | bindAddress => exact text?_eq_some_iff.mp hbindAddress
    | software => exact text?_eq_some_iff.mp hsoftware
    | initialRto => exact tells_mod (by decide) (by decide) hinitial
    | maxRto => exact tells_mod (by decide) (by decide) hlongest
    | maxTransmissions => exact tells_mod (by decide) (by decide) htimes
    | deadline => exact tells_mod (by decide) (by decide) hdeadline
    | logLevel => exact text?_eq_some_iff.mp hlevel

/-- A document tells settings whose sections can hold fields, and whose fields tell what they do. -/
theorem ofDocument?_eq_some_iff :
    ofDocument? document = some s ↔
      (∀ table ∈ ["stun", "retransmit", "detect", "logging"],
        ∀ v, document.lookup table = some v → IsSection v) ∧
      ∀ field : Field, Tells field.limit? (field.of {}) (given? document field) (field.of s) := by
  refine ⟨tells_of_ofDocument?, fun ⟨hsections, h⟩ => ?_⟩
  rw [ofDocument?_of_tells hsections (h .server) (h .bindAddress) (h .software) (h .initialRto)
    (h .maxRto) (h .maxTransmissions) (h .deadline) (h .logLevel)]
  simp only [Nat.toUInt64_eq, Nat.toUInt32_eq, UInt64.ofNat_toNat, UInt32.ofNat_toNat]

/-- Whether a document tells settings is decided by the values that it gives. -/
theorem exists_ofDocument?_iff :
    (∃ s, ofDocument? document = some s) ↔
      (∀ table ∈ ["stun", "retransmit", "detect", "logging"],
        ∀ v, document.lookup table = some v → IsSection v) ∧
      ∀ (field : Field) v, given? document field = some v →
        ∃ shown, Takes field.limit? v shown := by
  constructor
  · rintro ⟨s, h⟩
    obtain ⟨hsections, hfields⟩ := tells_of_ofDocument? h
    refine ⟨hsections, fun field v hv => ⟨field.of s, ?_⟩⟩
    have htells := hfields field
    rwa [hv] at htells
  · rintro ⟨hsections, hfields⟩
    obtain ⟨server, hserver⟩ := exists_text (hfields .server)
    obtain ⟨bindAddress, hbindAddress⟩ := exists_text (hfields .bindAddress)
    obtain ⟨software, hsoftware⟩ := exists_text (hfields .software)
    obtain ⟨initial, hinitial⟩ := exists_number (hfields .initialRto)
    obtain ⟨longest, hlongest⟩ := exists_number (hfields .maxRto)
    obtain ⟨times, htimes⟩ := exists_number (hfields .maxTransmissions)
    obtain ⟨deadline, hdeadline⟩ := exists_number (hfields .deadline)
    obtain ⟨level, hlevel⟩ := exists_text (hfields .logLevel)
    exact ⟨_, ofDocument?_of_tells hsections hserver hbindAddress hsoftware hinitial hlongest
      htimes hdeadline hlevel⟩

/-! ### What a document tells beyond the settings -/

/-- The names of a section's fields, in the order of their places. -/
def fieldNames (table : String) : List String :=
  (((sections {}).lookup table).getD []).map Prod.fst

/-- A section without what is no field of it. -/
def prunedSection (names : List String) : Value → Value
  | .table entries => .table (entries.filter (·.1 ∈ names))
  | .array items => .array (items.take names.length)
  | v => v

/-- A document without what is no section, and no field of its section. -/
def pruned (document : List (String × Value)) : List (String × Value) :=
  (document.filter fun entry => entry.1 ∈ (sections {}).map Prod.fst).map fun entry =>
    (entry.1, prunedSection (fieldNames entry.1) entry.2)

theorem lookup_filter {α : Type} {p : String → Bool} {name : String} (h : p name)
    (entries : List (String × α)) :
    (entries.filter fun entry => p entry.1).lookup name = entries.lookup name := by
  induction entries with
  | nil => rfl
  | cons entry entries ih =>
    obtain ⟨key, v⟩ := entry
    by_cases hname : name = key
    · subst hname
      rw [List.filter_cons, if_pos h, List.lookup_cons_self, List.lookup_cons_self]
    · have hkey : (name == key) = false := beq_eq_false_iff_ne.mpr hname
      rw [List.filter_cons]
      split <;> simp only [List.lookup_cons, hkey, ih]

theorem lookup_map_value {α β : Type} (f : String → α → β) (name : String)
    (entries : List (String × α)) :
    (entries.map fun entry => (entry.1, f entry.1 entry.2)).lookup name =
      (entries.lookup name).map (f name) := by
  induction entries with
  | nil => rfl
  | cons entry entries ih =>
    obtain ⟨key, v⟩ := entry
    by_cases hname : name = key
    · subst hname
      rw [List.map_cons, List.lookup_cons_self, List.lookup_cons_self, Option.map_some]
    · have hkey : (name == key) = false := beq_eq_false_iff_ne.mpr hname
      simp only [List.map_cons, List.lookup_cons, hkey, ih]

theorem lookup_pruned {table : String} (h : table ∈ (sections {}).map Prod.fst) :
    (pruned document).lookup table =
      (document.lookup table).map (prunedSection (fieldNames table)) := by
  rw [pruned, lookup_map_value (fun table => prunedSection (fieldNames table)),
    lookup_filter (p := (· ∈ (sections {}).map Prod.fst)) (decide_eq_true h)]

theorem isSection_prunedSection_iff {names : List String} {v : Value} :
    IsSection (prunedSection names v) ↔ IsSection v := by
  constructor
  · intro h
    cases v <;> first | exact h | constructor
  · rintro ⟨⟩ <;> constructor

theorem fieldIn?_prunedSection {names : List String} {place : Nat} {name : String}
    (h : names[place]? = some name) (v : Value) :
    fieldIn? (prunedSection names v) place name = fieldIn? v place name := by
  cases v with
  | table entries =>
    exact lookup_filter (p := (· ∈ names)) (decide_eq_true (List.mem_of_getElem? h)) entries
  | array items => exact List.getElem?_take_of_lt (List.getElem?_eq_some_iff.mp h).1
  | _ => rfl

theorem Field.mem_sections (field : Field) : field.spot.table ∈ (sections {}).map Prod.fst := by
  cases field <;> decide

theorem Field.getElem?_fieldNames (field : Field) :
    (fieldNames field.spot.table)[field.spot.place]? = some field.spot.name := by
  cases field <;> rfl

theorem given?_pruned (field : Field) : given? (pruned document) field = given? document field := by
  rw [given?, lookup_pruned field.mem_sections, Option.bind_map]
  exact Option.bind_congr fun v _ => fieldIn?_prunedSection field.getElem?_fieldNames v

/-- Nothing but sections and their fields matters. -/
theorem ofDocument?_pruned (document : List (String × Value)) :
    ofDocument? (pruned document) = ofDocument? document := by
  have hsections : ∀ table ∈ ["stun", "retransmit", "detect", "logging"],
      ((∀ v, (pruned document).lookup table = some v → IsSection v) ↔
        ∀ v, document.lookup table = some v → IsSection v) := by
    intro table htable
    rw [lookup_pruned htable]
    cases document.lookup table <;> simp [isSection_prunedSection_iff]
  refine Option.ext fun s => ?_
  simp only [ofDocument?_eq_some_iff, given?_pruned, forall₂_congr hsections]

/-- Settings are loaded from a document exactly where each section can hold fields and each value
that is given for a field is of its type. A field tells the value that is given for it, and its
default where none is given, and nothing else of the document matters. -/
theorem loaded_field_by_field (document : List (String × Value)) :
    ((∃ s, ofDocument? document = some s) ↔
      (∀ table ∈ ["stun", "retransmit", "detect", "logging"],
        ∀ v, document.lookup table = some v → IsSection v) ∧
      ∀ (field : Field) v, given? document field = some v →
        ∃ shown, Takes field.limit? v shown) ∧
    (∀ s, ofDocument? document = some s → ∀ field : Field,
      match given? document field with
      | some v => Takes field.limit? v (field.of s)
      | none => field.of s = field.of {}) ∧
    (∀ other, pruned other = pruned document → ofDocument? other = ofDocument? document) ∧
    ∀ bytes text, Utf8.decode? bytes = some text → Toml.document? text = some document →
      ∀ s, settingsOfFile (.ok bytes) = .ok s ↔ ofDocument? document = some s := by
  refine ⟨exists_ofDocument?_iff, fun s h field => ?_, fun other h => ?_, ?_⟩
  · have htells := (ofDocument?_eq_some_iff.mp h).2 field
    cases hgiven : given? document field with
    | none =>
      rw [hgiven] at htells
      exact htells
    | some v =>
      rw [hgiven] at htells
      exact htells
  · rw [← ofDocument?_pruned other, h, ofDocument?_pruned]
  · intro bytes text hbytes htext s
    rw [settingsOfFile_eq_ok_iff]
    constructor
    · rintro ⟨_, _, hfile, hdecode, hread⟩
      cases hfile
      cases hbytes.symm.trans hdecode
      rwa [ofToml?, htext] at hread
    · intro h
      exact ⟨bytes, text, rfl, hbytes, by rwa [ofToml?, htext]⟩

/-- A section as an array, and a name that is no section. -/
theorem loaded_field_by_field_array :
    let text := "stun=[\"h:9\"]\nx=1"
    let document : List (String × Value) :=
      [("stun", .array [.string "h:9"]), ("x", .integer 1)]
    let plain : List (String × Value) := [("stun", .array [.string "h:9"])]
    Toml.document? text = some document ∧ ofDocument? plain = ofDocument? document ∧
      ∃ s, settingsOfFile (.ok (Utf8.encode text)) = .ok s ∧
        Takes none (.string "h:9") (Field.server.of s) ∧
        Field.deadline.of s = Field.deadline.of {} := by
  intro text document plain
  have htext : Toml.document? text = some document := by cbv
  have hs : ofDocument? document = some { server := "h:9" } := by decide +kernel
  obtain ⟨-, hfields, hpruned, hfile⟩ := loaded_field_by_field document
  refine ⟨htext, hpruned plain (by cbv), { server := "h:9" }, ?_, ?_⟩
  · exact (hfile _ _ (Utf8.decode?_encode text) htext _).mpr hs
  · exact ⟨hfields _ hs .server, hfields _ hs .deadline⟩

/-- A date in place of a section is neither a table nor an array, and is read all the same: every
field keeps its default. -/
theorem date_read_as_section :
    Toml.document? "stun = 1979-05-27" = some [("stun", .datetime "1979-05-27")] ∧
    ofDocument? [("stun", .datetime "1979-05-27")] = some {} ∧
    ¬ ∀ document s, ofDocument? document = some s → ∀ v, document.lookup "stun" = some v →
      (∃ entries, v = .table entries) ∨ ∃ items, v = .array items := by
  have hread : ofDocument? [("stun", .datetime "1979-05-27")] = some {} := rfl
  refine ⟨by cbv, hread, fun h => ?_⟩
  obtain ⟨_, hv⟩ | ⟨_, hv⟩ := h _ _ hread _ rfl <;> cases hv

end NatBehavior.Settings
