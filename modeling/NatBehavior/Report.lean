import NatBehavior.Duration.Text
import NatBehavior.Settings.Basic
import NatBehavior.Text.JsonValue

/-! What the program tells about its settings and about a run, for people and for machines. -/
namespace NatBehavior

/-- The settings for machines, sections and fields in the order they are shown. -/
def Settings.report (s : Settings) : JsonValue :=
  .object (s.sections.map fun (name, fields) => (name, .object (fields.map fun (name, v) =>
    (name, match v with | .text t => .string t | .number n => .number n))))

namespace Classification

/-- A run for machines, members in alphabetical order. -/
def report (c : Classification) (server : String) : JsonValue :=
  .object [
    ("description", .string c.natType.description),
    ("error", match c.error with | some e => .string e.message | none => .null),
    ("hosts", .array (c.hosts.map fun host => .string (toString host))),
    ("nat_type", .string c.natType.name),
    ("server", .string server)]

/-- A run for people, line by line. -/
def lines (c : Classification) (server : String) (elapsed : Duration) : List String :=
  let external := match c.externalAddress with
    | some host => toString host
    | none => "unknown"
  ["STUN server: " ++ server, "NAT type:    " ++ c.natType.description, "External:    " ++ external]
    ++ (c.hosts.drop 1).map (fun host => "             " ++ toString host)
    ++ ["Elapsed:     " ++ toString elapsed]

end Classification

def expiredMessage (deadline : Duration) : String :=
  "Deadline of " ++ toString deadline.secs ++ "s expired"

/-- For machines, a run that its deadline ended. -/
def expiredReport (server : String) (deadline : Duration) : JsonValue :=
  .object [
    ("error", .string (expiredMessage deadline)),
    ("hosts", .array []),
    ("nat_type", .string NatType.error.name),
    ("server", .string server)]

end NatBehavior
