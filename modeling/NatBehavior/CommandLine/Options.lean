/-! Options of a command line: long names with an optional value after an equals sign, short
names that may be run together, and a double dash behind which no option is looked for. An
option may be given once. -/
namespace NatBehavior.CommandLine

/-- Why reading the arguments ends before a command is known. -/
inductive Stop where
  | usage
  | version
  | help
deriving DecidableEq, Repr

/-- What an option does to what was read so far; nothing where it may not be given. -/
inductive Effect (σ : Type) where
  | flag (set : σ → Option σ)
  | value (set : String → σ → Option σ)
  | stop (reason : Stop)

structure Spec (σ : Type) where
  short : Option Char
  long : String
  effect : Effect σ

/-- An option still to be given its value. -/
abbrev Pending (σ : Type) := Option (String → σ → Option σ)

variable {σ : Type}

/-- Something that may not be given is a mistake in usage. -/
def allowed (a : Option α) : Except Stop α :=
  match a with
  | some a => .ok a
  | none => .error .usage

/-- Carries out an option by its long name, with the value behind its equals sign. -/
def applyLong (specs : List (Spec σ)) (name : String) (attached : Option String) (s : σ) :
    Except Stop (σ × Pending σ) :=
  match specs.find? (·.long = name) with
  | none => .error .usage
  | some spec =>
    match spec.effect, attached with
    | .flag set, none => (allowed (set s)).map (·, none)
    | .stop reason, none => .error reason
    | .value set, some v => (allowed (set v s)).map (·, none)
    | .value set, none => .ok (s, some set)
    | _, some _ => .error .usage

/-- Carries out a run of short names. What follows the name of an option with a value is the
value, an equals sign in front of it not counted. -/
def applyShort (specs : List (Spec σ)) : List Char → σ → Except Stop (σ × Pending σ)
  | [], s => .ok (s, none)
  | c :: cs, s =>
    match specs.find? (·.short = some c) with
    | none => .error .usage
    | some spec =>
      match spec.effect with
      | .stop reason => .error reason
      | .flag set => (allowed (set s)).bind (applyShort specs cs)
      | .value set =>
        match cs with
        | [] => .ok (s, some set)
        | '=' :: v => (allowed (set (String.ofList v) s)).map (·, none)
        | v => (allowed (set (String.ofList v) s)).map (·, none)

/-- Whether an argument is read as options. A single dash is not. -/
def isOption (arg : String) : Bool :=
  match arg.toList with
  | '-' :: _ :: _ => true
  | _ => false

/-- Carries out one argument that holds options. -/
def applyOption (specs : List (Spec σ)) (arg : String) (s : σ) : Except Stop (σ × Pending σ) :=
  match arg.toList with
  | '-' :: '-' :: cs =>
    let name := String.ofList (cs.takeWhile (· ≠ '='))
    match cs.dropWhile (· ≠ '=') with
    | [] => applyLong specs name none s
    | _ :: v => applyLong specs name (some (String.ofList v)) s
  | _ :: cs => applyShort specs cs s
  | [] => .error .usage

/-- Reads options up to the name of a command, and returns what follows it. -/
def scan (specs : List (Spec σ)) (commands : List String) :
    List String → σ → Except Stop (σ × Option (String × List String))
  | [], s => .ok (s, none)
  | arg :: rest, s =>
    if arg ∈ commands then .ok (s, some (arg, rest))
    else if arg = "--" then if rest = [] then .ok (s, none) else .error .usage
    else if isOption arg then
      match applyOption specs arg s with
      | .error e => .error e
      | .ok (s, none) => scan specs commands rest s
      | .ok (s, some set) =>
        match rest with
        | [] => .error .usage
        | v :: after =>
          if isOption v then .error .usage
          else match set v s with
            | none => .error .usage
            | some s => scan specs commands after s
    else .error .usage

end NatBehavior.CommandLine
