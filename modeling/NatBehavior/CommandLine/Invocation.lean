import NatBehavior.CommandLine.Options
import NatBehavior.Text.Numeral

/-! What the program is asked to do. -/
namespace NatBehavior.CommandLine

inductive Command where
  /-- Classify, with these settings in place of the configured ones. -/
  | detect (server bind : Option String) (deadline : Option UInt64)
  /-- Show the settings. -/
  | config
deriving DecidableEq, Repr

structure Invocation where
  verbose : Bool
  configPath : Option String
  json : Bool
  command : Command
deriving DecidableEq, Repr

/-- Sets what is not set yet. -/
def once (old : Option α) (new : α) : Option (Option α) :=
  match old with
  | none => some (some new)
  | some _ => none

/-- Raises a flag that is down. -/
def raise (old : Bool) : Option Bool := if old then none else some true

structure Common where
  verbose : Bool := false
  config : Option String := none
  json : Bool := false

structure DetectOptions where
  server : Option String := none
  bind : Option String := none
  deadline : Option UInt64 := none
  json : Bool := false

def helpSpec : Spec σ := ⟨some 'h', "help", .stop .help⟩

/-- Options in front of the command. A path may not be empty. -/
def commonSpecs : List (Spec Common) := [
  ⟨some 'v', "verbose", .flag fun s => (raise s.verbose).map ({ s with verbose := · })⟩,
  ⟨some 'c', "config", .value fun v s =>
    if v.isEmpty then none else (once s.config v).map ({ s with config := · })⟩,
  ⟨none, "json", .flag fun s => (raise s.json).map ({ s with json := · })⟩,
  ⟨some 'V', "version", .stop .version⟩,
  helpSpec]

/-- Seconds are a numeral within 64 bits. -/
def readSecs? (v : String) : Option UInt64 :=
  (Numeral.readSigned? (UInt64.size - 1) v.toList).map Nat.toUInt64

def detectSpecs : List (Spec DetectOptions) := [
  ⟨some 's', "server", .value fun v s => (once s.server v).map ({ s with server := · })⟩,
  ⟨some 'b', "bind", .value fun v s => (once s.bind v).map ({ s with bind := · })⟩,
  ⟨some 'd', "deadline", .value fun v s => do
    return { s with deadline := ← once s.deadline (← readSecs? v) }⟩,
  ⟨none, "json", .flag fun s => (raise s.json).map ({ s with json := · })⟩,
  helpSpec]

/-- Of the common options only the one for machine-readable output may follow a command. -/
def configSpecs : List (Spec Bool) := [⟨none, "json", .flag raise⟩, helpSpec]

/-- Reads all arguments. -/
def invocation (args : List String) : Except Stop Invocation := do
  let (common, command) ← scan commonSpecs ["detect", "config", "help"] args {}
  match command with
  | some ("detect", rest) =>
    let (d, _) ← scan detectSpecs [] rest {}
    return ⟨common.verbose, common.config, common.json || d.json,
      .detect d.server d.bind d.deadline⟩
  | some ("config", rest) =>
    let (json, _) ← scan configSpecs [] rest false
    return ⟨common.verbose, common.config, common.json || json, .config⟩
  | some (_, rest) =>
    throw (if rest ∈ [[], ["detect"], ["config"], ["help"]] then .help else .usage)
  | none => throw .usage

end NatBehavior.CommandLine
