import NatBehavior.Discovery.Detector

/-! What the program can be told in its configuration, and the sections it is laid out in. -/
namespace NatBehavior

structure Settings where
  /-- Host and port of the server. -/
  server : String := defaultServer
  /-- Local address to bind. -/
  bindAddress : String := "0.0.0.0:0"
  /-- What requests tell about their sender; nothing where it is empty. -/
  software : String := defaultSoftware
  initialRtoMs : UInt64 := 100
  maxRtoMs : UInt64 := 1600
  maxTransmissions : UInt32 := 9
  /-- Bound of a whole run. -/
  deadlineSecs : UInt64 := 45
  logLevel : String := "warn"
deriving DecidableEq, Repr

namespace Settings

/-- The value of a field as it is shown. -/
inductive Shown where
  | text (s : String)
  | number (n : Nat)
deriving DecidableEq, Repr

/-- Sections and their fields in the order they are shown. -/
def sections (s : Settings) : List (String × List (String × Shown)) := [
  ("stun", [("server", .text s.server), ("bind_addr", .text s.bindAddress),
    ("software", .text s.software)]),
  ("retransmit", [("initial_rto_ms", .number s.initialRtoMs.toNat),
    ("max_rto_ms", .number s.maxRtoMs.toNat),
    ("max_transmissions", .number s.maxTransmissions.toNat)]),
  ("detect", [("deadline_secs", .number s.deadlineSecs.toNat)]),
  ("logging", [("level", .text s.logLevel)])]

/-- The detector that the settings describe, if their bind address is one. -/
def detector? (s : Settings) : Option Detector := do
  let bind ← Endpoint.ofText? s.bindAddress.toList
  return {
    server := s.server
    bind
    software := if s.software.isEmpty then none else some s.software
    retransmission := ⟨.ofMillis s.initialRtoMs, .ofMillis s.maxRtoMs, s.maxTransmissions.toNat⟩ }

def deadline (s : Settings) : Duration := .ofSecs s.deadlineSecs

end Settings

end NatBehavior
