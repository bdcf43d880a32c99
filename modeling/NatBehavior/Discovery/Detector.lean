import NatBehavior.Discovery.Flowchart
import NatBehavior.Probe.Exchange

/-! The whole run: resolve the server, bind a socket, classify. -/
namespace NatBehavior

/-- The program's name and version, as it tells servers. -/
def defaultSoftware : String := "natprobe/0.4.0"

/-- A public server that answers from other addresses on request. -/
def defaultServer : String := "stun.ekiga.net:3478"

structure Detector where
  /-- Host and port of the server. -/
  server : String
  /-- Local address of the socket. -/
  bind : Endpoint
  software : Option String
  retransmission : Retransmission
deriving DecidableEq, Repr

namespace Detector

def standard : Detector :=
  ⟨defaultServer, .v4 .unspecified 0, some defaultSoftware, .standard⟩

def withServer (server : String) : Detector := { standard with server := server }

/-- Looks for an address of the wanted family. The first of the others is kept on the way. -/
def scanAddresses (wantIpv4 : Bool) (kept : Option Endpoint) : List Endpoint → Option Endpoint
  | [] => kept
  | address :: rest =>
    if address.isIpv4 = wantIpv4 then some address
    else scanAddresses wantIpv4 (kept <|> some address) rest

/-- The first address of the wanted family, else the first of all. -/
def chooseAddress (wantIpv4 : Bool) (addresses : List Endpoint) : Option Endpoint :=
  scanAddresses wantIpv4 none addresses

/-- The server's address, picked from what its name resolved to. -/
def selectServer (d : Detector) (resolved : Except IoError (List Endpoint)) :
    Except DiscoveryError Endpoint :=
  match resolved with
  | .error e => .error (.resolve d.server e)
  | .ok addresses =>
    match chooseAddress d.bind.isIpv4 addresses with
    | some address => .ok address
    | none => .error (.resolve d.server ⟨.notFound, "no addresses returned"⟩)

variable {m : Type → Type} [Monad m]

/-- Classifies over a socket with a server already resolved. -/
def discoverWith (d : Detector) (socket : Socket m) (server : Endpoint) : m Classification :=
  (classify (.ofEndpoint server)).run (socket.probe d.retransmission d.software)

/-- Failures to resolve or to bind end the run before anything is sent. -/
def discover (d : Detector) (resolve : String → m (Except IoError (List Endpoint)))
    (bind : Endpoint → m (Except IoError (Socket m))) : m Classification := do
  match d.selectServer (← resolve d.server) with
  | .error e => return .failed e []
  | .ok server =>
    match ← bind d.bind with
    | .error e => return .failed (.io e) []
    | .ok socket => d.discoverWith socket server

end Detector

end NatBehavior
