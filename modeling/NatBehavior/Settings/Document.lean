import NatBehavior.Settings.Basic
import NatBehavior.Toml.Document

/-! Settings as TOML documents. What a document does not tell keeps its default, and what it
tells beyond the settings is passed over; a field must have its own type. -/
namespace NatBehavior.Settings

open Toml (Value)

/-- The largest integer of a document. -/
def integerLimit : Nat := 9223372036854775807

/-! ## Reading -/

/-- The fields of a section: by name in a table, by place in an array. A date has no fields.
Nothing else is a section. -/
def sectionFields? : Value → Option (Nat → String → Option Value)
  | .table entries => some fun _ name => entries.lookup name
  | .array items => some fun place _ => items[place]?
  | .datetime _ => some fun _ _ => none
  | _ => none

/-- The fields of a section of a document, none of them where the section is absent. -/
def fieldsOf? (document : List (String × Value)) (name : String) :
    Option (Nat → String → Option Value) :=
  match document.lookup name with
  | none => some fun _ _ => none
  | some v => sectionFields? v

/-- A field that must be a text. -/
def text? (default : String) : Option Value → Option String
  | none => some default
  | some (.string s) => some s
  | some _ => none

/-- A field that must be an integer from zero to a limit. -/
def number? (limit default : Nat) : Option Value → Option Nat
  | none => some default
  | some (.integer n) => if 0 ≤ n ∧ n ≤ limit then some n.toNat else none
  | some _ => none

/-- The settings that a document tells. -/
def ofDocument? (document : List (String × Value)) : Option Settings := do
  let standard : Settings := {}
  let stun ← fieldsOf? document "stun"
  let retransmit ← fieldsOf? document "retransmit"
  let detect ← fieldsOf? document "detect"
  let logging ← fieldsOf? document "logging"
  let server ← text? standard.server (stun 0 "server")
  let bindAddress ← text? standard.bindAddress (stun 1 "bind_addr")
  let software ← text? standard.software (stun 2 "software")
  let initial ← number? integerLimit standard.initialRtoMs.toNat (retransmit 0 "initial_rto_ms")
  let longest ← number? integerLimit standard.maxRtoMs.toNat (retransmit 1 "max_rto_ms")
  let times ← number? (UInt32.size - 1) standard.maxTransmissions.toNat
    (retransmit 2 "max_transmissions")
  let deadline ← number? integerLimit standard.deadlineSecs.toNat (detect 0 "deadline_secs")
  let level ← text? standard.logLevel (logging 0 "level")
  return ⟨server, bindAddress, software, initial.toUInt64, longest.toUInt64, times.toUInt32,
    deadline.toUInt64, level⟩

/-- Reads the settings of a document's text. -/
def ofToml? (text : String) : Option Settings := do
  ofDocument? (← Toml.document? text)

/-! ## Writing -/

def fieldText : String × Shown → List Char
  | (name, .text s) => name.toList ++ " = ".toList ++ Toml.quote s ++ ['\n']
  | (name, .number n) => name.toList ++ " = ".toList ++ Nat.toDigits 10 n ++ ['\n']

def sectionText : String × List (String × Shown) → List Char
  | (name, fields) => '[' :: name.toList ++ ']' :: '\n' :: fields.flatMap fieldText

/-- The settings as a document, sections divided by empty lines; none where a number is larger
than the integers of a document. -/
def toToml? (s : Settings) : Option String :=
  if s.initialRtoMs.toNat ≤ integerLimit ∧ s.maxRtoMs.toNat ≤ integerLimit
      ∧ s.deadlineSecs.toNat ≤ integerLimit then
    some (String.ofList (['\n'].intercalate (s.sections.map sectionText)))
  else none

end NatBehavior.Settings
