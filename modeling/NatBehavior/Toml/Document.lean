import NatBehavior.Toml.Statement

/-! Documents: statements entered one by one into a tree of tables. A table knows how it came
about, which decides how it may still grow. -/
namespace NatBehavior.Toml

inductive Origin where
  /-- Opened by its own header. -/
  | header
  /-- Named on the way to another header. -/
  | implied
  /-- Named by a path of keys. -/
  | dotted
deriving DecidableEq, Repr

inductive Node where
  | value (v : Value)
  | table (origin : Origin) (entries : List (String × Node))
  /-- An array of tables, each opened by a header of its own. -/
  | elements (tables : List (List (String × Node)))

abbrev Entries := List (String × Node)

namespace Entries

/-- Puts a node in place of the one that a name stands for. -/
def replace (name : String) (node : Node) (entries : Entries) : Entries :=
  entries.map fun entry => if entry.1 = name then (name, node) else entry

/-- Changes the last of some tables. -/
def changeLast (f : Entries → Option Entries) : List Entries → Option (List Entries)
  | [] => none
  | [t] => (f t).map ([·])
  | t :: ts => (changeLast f ts).map (t :: ·)

/-- Changes the table at the path of a header, in the last element of each array of tables on
the way. Tables that are missing are implied. -/
def atHeader (f : Entries → Option Entries) : List String → Entries → Option Entries
  | [], entries => f entries
  | name :: path, entries =>
    match entries.lookup name with
    | none => (atHeader f path []).map fun t => entries ++ [(name, .table .implied t)]
    | some (.table origin t) =>
      (atHeader f path t).map fun t => entries.replace name (.table origin t)
    | some (.elements ts) =>
      (changeLast (atHeader f path) ts).map fun ts => entries.replace name (.elements ts)
    | some (.value _) => none

/-- Opens a table: a new one, or one that was only implied. -/
def openTable (name : String) (entries : Entries) : Option Entries :=
  match entries.lookup name with
  | none => some (entries ++ [(name, .table .header [])])
  | some (.table .implied t) => some (entries.replace name (.table .header t))
  | _ => none

/-- Opens a further element of an array of tables. -/
def openElement (name : String) (entries : Entries) : Option Entries :=
  match entries.lookup name with
  | none => some (entries ++ [(name, .elements [[]])])
  | some (.elements ts) => some (entries.replace name (.elements (ts ++ [[]])))
  | _ => none

/-- Assigns a value at a path of keys. The table that gets the value must have come about by
such a path itself, and those on the way must not have headers of their own. -/
def assign (value : Value) : List String → Entries → Option Entries
  | [], _ => none
  | [name], entries =>
    match entries.lookup name with
    | none => some (entries ++ [(name, .value value)])
    | some _ => none
  | name :: path, entries =>
    match entries.lookup name with
    | none => (assign value path []).map fun t => entries ++ [(name, .table .dotted t)]
    | some (.table .dotted t) =>
      (assign value path t).map fun t => entries.replace name (.table .dotted t)
    | some (.table .implied t) =>
      if path.length = 1 then none
      else (assign value path t).map fun t => entries.replace name (.table .implied t)
    | some (.elements ts) =>
      if path.length = 1 then none
      else (changeLast (assign value path) ts).map fun ts => entries.replace name (.elements ts)
    | some (.table .header _) => none
    | some (.value _) => none

end Entries

mutual

/-- The value of a node, whatever it came from. -/
def Node.toValue : Node → Value
  | .value v => v
  | .table _ entries => .table (Entries.toValues entries)
  | .elements ts => .array (Entries.toTables ts)

def Entries.toValues : List (String × Node) → List (String × Value)
  | [] => []
  | (name, node) :: rest => (name, node.toValue) :: Entries.toValues rest

def Entries.toTables : List (List (String × Node)) → List Value
  | [] => []
  | t :: ts => .table (Entries.toValues t) :: Entries.toTables ts

end

/-- An inline table is the table of its assignments. -/
def inlineTable? (pairs : List (List String × Value)) : Option Value :=
  (pairs.foldlM (fun entries (path, v) => Entries.assign v path entries) []).map fun entries =>
    .table (Entries.toValues entries)

/-- Reads a value in which arrays and inline tables are nested no deeper than the room allows. -/
def value : (room : Nat) → Reader Value
  | 0, cs =>
    match quotedString cs with
    | some (s, rest) => some (.string s, rest)
    | none => scalar cs
  | room + 1, cs =>
    match cs with
    | '[' :: rest =>
      (arrayItems (value room) rest.length rest).map fun (items, rest) => (.array items, rest)
    | '\x7b' :: rest =>
      match skipSpace rest with
      | '\x7d' :: rest => some (.table [], rest)
      | rest => do
        let (pairs, rest) ← inlinePairs (assignment (value room)) rest.length rest
        return (← inlineTable? pairs, rest)
    | cs => value 0 cs

/-- Reads a header or an assignment, without the end of its line. -/
def statement : Reader Statement := fun cs =>
  match cs with
  | '[' :: '[' :: rest => do
    let (path, rest) ← keyPath nestingLimit rest
    let (_, rest) ← Reader.char ']' rest
    let (_, rest) ← Reader.char ']' rest
    return (.element path, rest)
  | '[' :: rest => do
    let (path, rest) ← keyPath nestingLimit rest
    let (_, rest) ← Reader.char ']' rest
    return (.table path, rest)
  | cs => do
    let ((path, v), rest) ← assignment (value nestingLimit) cs
    return (.assign path v, rest)

/-- Reads the statements of a text. The bound is met by the length of the text. -/
def statements : (bound : Nat) → List Char → Option (List Statement)
  | bound, cs =>
    match skipSpace cs, bound with
    | [], _ => some []
    | _, 0 => none
    | c :: cs, bound + 1 =>
      if c = '#' ∨ c = '\n' ∨ c = '\r' then
        (lineEnd (c :: cs)).bind (statements bound)
      else do
        let (s, rest) ← statement (c :: cs)
        let rest ← lineEnd rest
        return s :: (← statements bound rest)

/-- A document while it is read: the root table and the path of the header in force. -/
structure Draft where
  root : Entries
  header : List String

/-- Opens something at the last key of a path. -/
def Draft.openAt (d : Draft) (open? : String → Entries → Option Entries) (path : List String) :
    Option Draft := do
  let name ← path.getLast?
  return ⟨← Entries.atHeader (open? name) path.dropLast d.root, path⟩

def Draft.enter (d : Draft) : Statement → Option Draft
  | .table path => d.openAt Entries.openTable path
  | .element path => d.openAt Entries.openElement path
  | .assign path v => do
    return { d with root := ← Entries.atHeader (Entries.assign v path) d.header d.root }

/-- The root table of a list of statements. -/
def ofStatements? (list : List Statement) : Option (List (String × Value)) :=
  (list.foldlM Draft.enter ⟨[], []⟩).map fun d => Entries.toValues d.root

/-- Reads a document, which may start with a byte order mark. -/
def document? (text : String) : Option (List (String × Value)) := do
  let cs := match text.toList with
    | '\uFEFF' :: cs => cs
    | cs => cs
  ofStatements? (← statements cs.length cs)

end NatBehavior.Toml
