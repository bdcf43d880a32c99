import NatBehavior.CommandLine.Program
import NatBehavior.Network.Names
import Std.Async.DNS
import Std.Async.Timer
import Std.Async.UDP

/-! The program on a real machine: files, clocks, names and sockets of the operating system behind
what the library asks of its environment. Nothing waits here but for one datagram at a time, and for
the deadline of a run. -/
namespace NatBehavior.Main

open Std.Async Std.Net

/-! ## Addresses and failures -/

def toIPv4 (ip : Ipv4) : IPv4Addr := .ofParts ip.a ip.b ip.c ip.d

def toIPv6 (ip : Ipv6) : IPv6Addr := ⟨⟨ip.groups.toArray, by simp [ip.length_groups]⟩⟩

def ofIPv4 (ip : IPv4Addr) : Ipv4 := ⟨ip.octets[0], ip.octets[1], ip.octets[2], ip.octets[3]⟩

def ofIPv6 (ip : IPv6Addr) : Ipv6 := ⟨ip.segments.toList, by simp⟩

def ofIPAddr : IPAddr → Ip
  | .v4 ip => .v4 (ofIPv4 ip)
  | .v6 ip => .v6 (ofIPv6 ip)

def toSocketAddress : Endpoint → SocketAddress
  | .v4 ip port => .v4 ⟨toIPv4 ip, port⟩
  | .v6 ip port _ _ => .v6 ⟨toIPv6 ip, port⟩

def ofSocketAddress : SocketAddress → Endpoint
  | .v4 a => .v4 (ofIPv4 a.addr) a.port
  | .v6 a => .v6 (ofIPv6 a.addr) a.port 0 0

/-- The number and the details that the operating system gave for a failure. Some calls report
the number with a minus sign. -/
def describe : IO.Error → Nat × String
  | .alreadyExists _ n s | .otherError n s | .resourceBusy n s | .resourceVanished n s
  | .unsupportedOperation n s | .hardwareFault n s | .unsatisfiedConstraints n s
  | .illegalOperation n s | .protocolError n s | .timeExpired n s | .interrupted _ n s
  | .noFileOrDirectory _ n s | .invalidArgument _ n s | .permissionDenied _ n s
  | .resourceExhausted _ n s | .inappropriateType _ n s | .noSuchThing _ n s =>
    (n.toInt32.toInt.natAbs, s)
  | .unexpectedEof => (0, "unexpected end of file")
  | .userError s => (0, s)

def ofError (e : IO.Error) : IoError :=
  let (number, details) := describe e
  match OsError.ofNumber? number with
  | some e => e.toIoError
  | none => ⟨.uncategorized, details⟩

def attempt (act : Async α) : Async (Except IoError α) :=
  try return .ok (← act)
  catch e => return .error (ofError e)

/-! ## Sockets -/

/-- The longest wait that timers are set to. -/
def longestTimer : Nat := 4611686018427387904

/-- So many milliseconds as the nanoseconds from now to then, rounded up. -/
def millisUntil (now time : Nat) : Nat := min longestTimer ((time - now + 999999) / 1000000)

/-- The next datagram that comes before a time on the clock, in nanoseconds. One that is there
already is received whatever the time is. -/
def receiveUntil (socket : UDP.Socket) (time : Nat) : Async (Option Datagram) := do
  let incoming := socket.recvSelector receiveLimit.toUInt64
  let datagram := fun (payload, source) =>
    (⟨payload.toList, (source.map ofSocketAddress).getD (.v4 .unspecified 0)⟩ : Datagram)
  let now ← IO.monoNanosNow
  if time ≤ now then return (← incoming.tryFn).map datagram
  Selectable.one #[
    .case incoming fun received => return some (datagram received),
    .case (← Selector.sleep (.ofNat (millisUntil now time))) fun _ => return none]

/-- The address that a socket connected to a destination gets. -/
def sourceToward (dest : Endpoint) : IO Ip := do
  let socket ← UDP.Socket.mk
  socket.connect (toSocketAddress dest)
  return (ofSocketAddress (← socket.getSockName)).ip

def openSocket (bind : Endpoint) : Async (Socket Async) := do
  let socket ← UDP.Socket.mk
  socket.bind (toSocketAddress bind)
  let own := ofSocketAddress (← socket.getSockName)
  return {
    fresh := do
      let bytes ← IO.getRandomBytes 12
      return (Stun.TransactionId.ofBytes? bytes.toList).getD .zero
    transmit := fun payload dest =>
      ExceptT.mk (attempt (socket.send ⟨payload.toArray⟩ (some (toSocketAddress dest))))
    deadline := fun wait => return (← IO.monoNanosNow) + wait.nanos
    receive := fun time => ExceptT.mk (attempt (receiveUntil socket time))
    ownToward := fun dest =>
      if own.ip.isUnspecified then do
        return .ofIp (← ExceptT.mk (attempt (sourceToward dest))) own.port
      else return own }

/-! ## The environment -/

/-- Names that are well formed but no addresses are looked up by the system. -/
def resolve (server : String) : Async (Except IoError (List Endpoint)) := do
  match serverAddresses localNames server, splitLast? ':' server.toList with
  | .ok addresses, _ => return .ok addresses
  | .error e, none => return .error e
  | .error e, some (name, _) =>
    if e.kind = .invalidInput then return .error e
    try
      let ips ← DNS.getAddrInfo (String.ofList name) ""
      return serverAddresses (fun _ => .ok (ips.toList.map ofIPAddr)) server
    catch failure => return .error (lookupFailure (describe failure).2)

/-- A run with all that it waits for, names included, against its deadline. -/
def discover (d : Detector) (deadline : Duration) : IO (Option Classification × Duration) := do
  let start ← IO.monoNanosNow
  let run := some <$> d.discover resolve fun bind => attempt (openSocket bind)
  let timer := do
    sleep (.ofNat (millisUntil 0 deadline.nanos))
    return none
  let found ← Async.block (Async.race run timer)
  return (found, .clamp ((← IO.monoNanosNow) - start))

/-- The directory of the user's settings. -/
def settingsDirectory : IO String := do
  match ← IO.getEnv "XDG_CONFIG_HOME", ← IO.getEnv "HOME" with
  | some dir, home =>
    if dir.startsWith "/" then return dir else return (home.map (· ++ "/.config")).getD "/tmp"
  | none, home => return (home.map (· ++ "/.config")).getD "/tmp"

def environment : IO (CommandLine.Environment IO) := do
  return {
    contents := fun path => do
      return (← Async.block (attempt (IO.FS.readBinFile path))).map (·.toList)
    fileExists := fun path => do
      match ← Async.block (attempt (IO.FS.Handle.mk path .read)) with
      | .ok _ => return true
      | .error e => return e.kind != .notFound && e.kind != .notADirectory
    defaultPath := (← settingsDirectory) ++ "/natprobe/config.toml"
    discover }

end NatBehavior.Main

def main (args : List String) : IO UInt32 := do
  let out ← NatBehavior.CommandLine.run (← NatBehavior.Main.environment) args
  IO.print out.stdout
  out.stderr.forM IO.eprintln
  return out.exitCode
