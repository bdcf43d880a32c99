import NatBehavior.Network.Machine
import NatBehavior.Probe.Exchange

/-! Datagram traffic on a virtual clock. Sending takes no time. What is on its way is kept in order
of arrival, datagrams due at one time in the order they were sent; a wait that ends at the time of
an arrival ends first. Listeners answer by a script, one entry a request. Sends and receives may
fail at any time, and a wait that would end past the range of the clock stops the program. -/
namespace NatBehavior

/-- What the client's socket finds at a time in nanoseconds: a datagram, or a failure to receive. -/
structure Arrival where
  due : Nat
  event : Except IoError Datagram

/-- A datagram that listeners send after a request: from where, how many nanoseconds later, and
what it holds, which may depend on the request. -/
structure Reply where
  source : Endpoint
  delay : Nat
  payload : Bytes → Bytes

structure Transmission where
  time : Nat
  source : Endpoint
  dest : Endpoint
  payload : Bytes

/-- What stays the same during a run. -/
structure Site where
  machine : Machine
  /-- Address that the client's socket is bound to, or is to be bound to. -/
  bound : Endpoint
  listeners : List Endpoint
  /-- Transactions in the order they are taken. -/
  transactions : Nat → Stun.TransactionId
  /-- The first time, in nanoseconds, that the clock cannot tell. -/
  clockEnd : Nat
  /-- Why the network refuses a datagram, given how many it took before. -/
  refuses : Nat → Transmission → Option IoError

structure World where
  now : Nat
  /-- What is on its way to the client, in order of arrival. -/
  inbox : List Arrival
  /-- What listeners send after each request to come. -/
  script : List (List Reply)
  /-- What the client sent, the latest first. -/
  sent : List Transmission
  /-- How many transactions were taken. -/
  taken : Nat

/-- Why a program is stopped before its end. -/
inductive Halt where
  /-- A wait would end at a time that the clock cannot tell. -/
  | pastClock
deriving DecidableEq, Repr

/-- A program on the virtual clock. -/
abbrev Simulation := ExceptT Halt (StateM World)

namespace World

/-- A world in which nothing has happened yet. -/
def start (script : List (List Reply)) : World := ⟨0, [], script, [], 0⟩

instance : Nonempty World := ⟨.start []⟩

/-- Puts an arrival behind those that come no later. -/
def deliver (inbox : List Arrival) (a : Arrival) : List Arrival :=
  inbox.takeWhile (·.due ≤ a.due) ++ a :: inbox.dropWhile (·.due ≤ a.due)

/-- The source that a socket reports: one of version 6 maps sources of version 4. -/
def reportedSource (bound source : Endpoint) : Endpoint :=
  match bound, source with
  | .v6 .., .v4 ip port => .v6 (.ofIpv4 ip) port 0 0
  | _, _ => source

/-- What the socket finds next, if that is before the deadline, else nothing at the deadline. What
came earlier is found now. -/
def next (deadline : Nat) (w : World) : Option (Except IoError Datagram) × World :=
  match w.inbox with
  | [] => (none, { w with now := deadline })
  | a :: inbox =>
    let time := max w.now a.due
    if time < deadline then (some a.event, { w with now := time, inbox })
    else (none, { w with now := deadline })

end World

namespace Site

/-- Binds the client's socket. Port zero leaves the choice to the machine, which takes the first
of those that are kept for that. -/
def opened (site : Site) : Except OsError Site :=
  match site.machine.bindError? site.listeners site.bound with
  | some e => .error e
  | none =>
    .ok (if site.bound.port = 0 then { site with bound := .ofIp site.bound.ip 49152 } else site)

/-- Where a listener sees the client's datagrams come from. -/
def sourceToward (site : Site) (dest : Endpoint) : Endpoint :=
  match site.machine.ownToward site.bound dest with
  | .ok source => source
  | .error _ => site.bound

/-- Whether a listener gets what is sent to an address. -/
def hears (site : Site) (dest : Endpoint) : Bool :=
  site.machine.delivers && dest ∈ site.listeners

/-- Whether and why a datagram is not sent, given how many were sent before: the machine looks at it
first. -/
def refusal? (site : Site) (payload : Bytes) (dest : Endpoint) (count time : Nat) :
    Option IoError :=
  match site.machine.sendError? site.bound dest payload.length with
  | some e => some e.toIoError
  | none => site.refuses count ⟨time, site.sourceToward dest, dest, payload⟩

/-- The world after a datagram was sent: a listener that gets it sends what the script says. -/
def afterSending (site : Site) (payload : Bytes) (dest : Endpoint) (w : World) : World :=
  let sent := ⟨w.now, site.sourceToward dest, dest, payload⟩ :: w.sent
  if site.hears dest then
    let arrivals := (w.script.headD []).map fun reply =>
      ⟨w.now + reply.delay,
        .ok ⟨reply.payload payload, World.reportedSource site.bound reply.source⟩⟩
    { w with sent, script := w.script.tail, inbox := arrivals.foldl World.deliver w.inbox }
  else { w with sent }

/-- The client's socket. -/
def socket (site : Site) : Socket Simulation where
  fresh := modifyGet fun w => (site.transactions w.taken, { w with taken := w.taken + 1 })
  transmit payload dest := do
    let w ← get
    match site.refusal? payload dest w.sent.length w.now with
    | some e => throw e
    | none => set (site.afterSending payload dest w)
  deadline wait := do
    let time := (← get).now + wait.nanos
    if site.clockEnd ≤ time then throw .pastClock
    return time
  receive deadline := do
    match ← modifyGet (World.next deadline) with
    | none => return none
    | some (.ok datagram) => return some datagram
    | some (.error e) => throw e
  ownToward dest :=
    match site.machine.ownToward site.bound dest with
    | .ok own => pure own
    | .error e => throw e.toIoError

/-- The client's socket, or why there is none. -/
def bind (site : Site) : Except IoError (Socket Simulation) :=
  match site.opened with
  | .ok site => .ok site.socket
  | .error e => .error e.toIoError

/-- What listeners got from the client, in order. -/
def requests (site : Site) (w : World) : List Transmission :=
  w.sent.reverse.filter (site.hears ·.dest)

end Site

end NatBehavior
