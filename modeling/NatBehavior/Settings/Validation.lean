import NatBehavior.Discovery.ServerName
import NatBehavior.Settings.Basic
import NatBehavior.Text.Blank

/-! When settings can be used. The first rule that is broken is told. -/
namespace NatBehavior.Settings

inductive Invalid where
  | missingPort (server : String)
  | badPort (server port : String)
  | zeroPort (server : String)
  | emptyHost (server : String)
  | badCharacters (server : String)
  | badBindAddress
  | badInitialRto (limit given : Nat)
  | badTransmissions
  | zeroDeadline
  | badLogLevel (level : String)
deriving DecidableEq, Repr

def logLevels : List String := ["trace", "debug", "info", "warn", "error"]

def Invalid.message : Invalid → String
  | missingPort server =>
    "STUN server '" ++ server ++ "' missing port (expected format: host:port)"
  | badPort server port => "STUN server '" ++ server ++ "' has invalid port: " ++ port
  | zeroPort server => "STUN server '" ++ server ++ "' has invalid port: 0"
  | emptyHost server => "STUN server '" ++ server ++ "' has empty hostname"
  | badCharacters server => "STUN server '" ++ server ++ "' contains invalid characters"
  | badBindAddress => "invalid socket address syntax"
  | badInitialRto limit given =>
    "Initial RTO must be between 1 and max RTO (" ++ toString limit ++ " ms), got "
      ++ toString given ++ " ms"
  | badTransmissions => "Max transmissions must be between 1 and 32"
  | zeroDeadline => "Deadline must be at least 1 second"
  | badLogLevel level =>
    "Invalid log level: " ++ level ++ ". Must be one of: " ++ ", ".intercalate logLevels

/-- Characters that no host name has. -/
def isBadHostChar (c : Char) : Bool := c = '/' || c = '\\' || isBlank c

/-- A server is a host and a port, divided at the last colon. -/
def checkServer (server : String) : Except Invalid Unit :=
  match splitLast? ':' server.toList with
  | none => .error (.missingPort server)
  | some (host, port) =>
    match Numeral.readSigned? 65535 port with
    | none => .error (.badPort server (String.ofList port))
    | some port =>
      if port = 0 then .error (.zeroPort server)
      else if host = [] ∨ host = ['[', ']'] then .error (.emptyHost server)
      else if host.any isBadHostChar then .error (.badCharacters server)
      else .ok ()

/-- Levels are compared in lower case. No other character has one of theirs as its lower case. -/
def isLogLevel (level : String) : Bool :=
  logLevels.contains (String.ofList (level.toList.map Char.toLower))

def validate (s : Settings) : Except Invalid Unit := do
  checkServer s.server
  if (Endpoint.ofText? s.bindAddress.toList).isNone then throw .badBindAddress
  if s.initialRtoMs = 0 ∨ s.maxRtoMs < s.initialRtoMs then
    throw (.badInitialRto s.maxRtoMs.toNat s.initialRtoMs.toNat)
  if s.maxTransmissions = 0 ∨ 32 < s.maxTransmissions then throw .badTransmissions
  if s.deadlineSecs = 0 then throw .zeroDeadline
  if !isLogLevel s.logLevel then throw (.badLogLevel s.logLevel)

end NatBehavior.Settings
