import NatBehavior.Host
import NatBehavior.Text.JsonString

/-! Hosts in JSON: a string that holds the text of the host. -/
namespace NatBehavior.Host

def json (host : Host) : JsonValue := .string (toString host)

/-- Reads a JSON text that is a string with an endpoint in it. -/
def ofJson? (cs : List Char) : Option Host := do
  ofText? (← JsonString.ofText? cs).toList

end NatBehavior.Host
