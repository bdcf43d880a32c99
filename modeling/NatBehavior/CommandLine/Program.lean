import NatBehavior.CommandLine.Invocation
import NatBehavior.Report
import NatBehavior.Settings.Document
import NatBehavior.Settings.Validation

/-! The program, apart from the machine that it runs on. -/
namespace NatBehavior.CommandLine

/-- What the program needs of its machine. -/
structure Environment (m : Type → Type) where
  contents : String → m (Except IoError Bytes)
  fileExists : String → m Bool
  /-- Where the configuration is looked for when no path is given. -/
  defaultPath : String
  /-- Runs a detector and tells how long that took; nothing when the deadline came first. -/
  discover : Detector → Duration → m (Option Classification × Duration)

structure Output where
  stdout : String
  stderr : List String
  exitCode : UInt32
deriving DecidableEq, Repr

/-- Why the settings are not available. -/
inductive SettingsError where
  | io (error : IoError)
  | notToml
  | invalid (reason : Settings.Invalid)
deriving DecidableEq, Repr

def SettingsError.message : SettingsError → String
  | .io e => e.message
  | .notToml => "TOML parse error"
  | .invalid reason => reason.message

/-- The settings that the bytes of a file tell. -/
def settingsOfFile (file : Except IoError Bytes) : Except SettingsError Settings :=
  match file with
  | .error e => .error (.io e)
  | .ok bytes =>
    match Utf8.decode? bytes with
    | none => .error (.io ⟨.invalidData, "stream did not contain valid UTF-8"⟩)
    | some text =>
      match Settings.ofToml? text with
      | none => .error .notToml
      | some s => .ok s

/-- The settings with those of the command line in their places. -/
def Command.override (command : Command) (s : Settings) : Settings :=
  match command with
  | .config => s
  | .detect server bind deadline =>
    { s with
      server := server.getD s.server
      bindAddress := bind.getD s.bindAddress
      deadlineSecs := deadline.getD s.deadlineSecs }

/-- The settings in force. -/
def effective (command : Command) (loaded : Except SettingsError Settings) :
    Except SettingsError Settings := do
  let s := command.override (← loaded)
  match s.validate with
  | .error reason => throw (.invalid reason)
  | .ok () => return s

def versionText : String := "natprobe 0.4.0\n"

def usageText : String :=
  "Usage: natprobe [OPTIONS] <COMMAND>\n\n"
    ++ "Commands:\n"
    ++ "  detect  Run one NAT type classification\n"
    ++ "  config  Print the effective configuration\n\n"
    ++ "Options:\n"
    ++ "  -v, --verbose          Enable verbose output\n"
    ++ "  -c, --config <CONFIG>  Configuration file path\n"
    ++ "      --json             Print results as JSON\n"
    ++ "  -h, --help             Print help\n"
    ++ "  -V, --version          Print version\n"

def stopOutput : Stop → Output
  | .usage => ⟨"", [usageText], 2⟩
  | .version => ⟨versionText, [], 0⟩
  | .help => ⟨usageText, [], 0⟩

def failedOutput (e : SettingsError) : Output := ⟨"", ["Error: " ++ e.message], 1⟩

/-- Shows the settings, below the path that they are looked for at. The path is shown before it is
known whether the settings can be written. -/
def configOutput (defaultPath : String) (json : Bool) (s : Settings) : Output :=
  let heading := "# " ++ defaultPath ++ "\n"
  if json then ⟨s.report.text ++ "\n", [], 0⟩
  else match s.toToml? with
    | some toml => ⟨heading ++ toml, [], 0⟩
    | none => ⟨heading, ["Error: out-of-range value for u64 type"], 1⟩

/-- Reports a run; a run that failed is told by the exit code too. -/
def detectOutput (json : Bool) (s : Settings) (run : Option Classification × Duration) : Output :=
  match run with
  | (some c, elapsed) =>
    let exitCode := if c.isOk then 0 else 1
    if json then ⟨(c.report s.server).text ++ "\n", [], exitCode⟩
    else
      let complaint := match c.error with
        | some e => ["error: " ++ e.message]
        | none => []
      ⟨String.join ((c.lines s.server elapsed).map (· ++ "\n")), complaint, exitCode⟩
  | (none, _) =>
    if json then ⟨(expiredReport s.server s.deadline).text ++ "\n", [], 1⟩
    else ⟨"", ["error: " ++ expiredMessage s.deadline], 1⟩

variable {m : Type → Type} [Monad m]

/-- The settings as configured: from the given path, else from the default one if there is a file,
else the standard ones. -/
def loadSettings (env : Environment m) (path : Option String) :
    m (Except SettingsError Settings) := do
  match path with
  | some path => return settingsOfFile (← env.contents path)
  | none =>
    if ← env.fileExists env.defaultPath then
      return settingsOfFile (← env.contents env.defaultPath)
    else return .ok {}

def run (env : Environment m) (args : List String) : m Output := do
  match invocation args with
  | .error stop => return stopOutput stop
  | .ok i =>
    match effective i.command (← loadSettings env i.configPath) with
    | .error e => return failedOutput e
    | .ok s =>
      match i.command with
      | .config => return configOutput env.defaultPath i.json s
      | .detect .. =>
        match s.detector? with
        | none => return failedOutput (.invalid .badBindAddress)
        | some d => return detectOutput i.json s (← env.discover d s.deadline)

end NatBehavior.CommandLine
