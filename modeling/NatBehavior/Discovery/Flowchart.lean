import NatBehavior.Discovery.Classification

/-! The decision procedure of RFC 3489 as a tree of probes. A node names the next probe and says
how the run goes on after each outcome; a leaf is the classification. The tree knows no network,
so the same procedure runs over a socket and over given outcomes. -/
namespace NatBehavior

inductive Inquiry where
  | verdict (c : Classification)
  | probe (dest : Host) (change : ChangeRequest) (next : ProbeOutcome → Inquiry)

namespace Inquiry

/-- Carries out the probes one after another. -/
def run {m : Type → Type} [Monad m] (ask : Host → ChangeRequest → m ProbeOutcome) :
    Inquiry → m Classification
  | verdict c => pure c
  | probe dest change next => ask dest change >>= fun outcome => (next outcome).run ask

/-- A run against given outcomes: its result and the probes it issued. -/
structure Transcript where
  classification : Classification
  probes : List (Host × ChangeRequest)

/-- Runs against an endless list of outcomes. -/
def replay (outcomes : Nat → ProbeOutcome) : Inquiry → Transcript
  | verdict c => ⟨c, []⟩
  | probe dest change next =>
    let rest := (next (outcomes 0)).replay fun i => outcomes (i + 1)
    ⟨rest.classification, (dest, change) :: rest.probes⟩

/-- Given outcomes, and silence from then on. -/
def thenSilence (outcomes : List ProbeOutcome) (i : Nat) : ProbeOutcome :=
  outcomes.getD i (.ok none)

end Inquiry

namespace Flowchart

open Inquiry

/-- A node that fails with the probe and goes on after silence or a response. -/
def ask (dest : Host) (change : ChangeRequest) (hosts : List Host)
    (next : Option Response → Inquiry) : Inquiry :=
  probe dest change fun
    | .error e => verdict (.failed (.transport e) hosts)
    | .ok answer => next answer

/-- Test III at the alternate address. The answer must come from the same address and another
port. -/
def portFiltering (hosts : List Host) (alternate : Host) : Inquiry :=
  ask alternate .port hosts fun
    | none => verdict (.leaf .portRestricted hosts)
    | some r =>
      if r.server.ip ≠ alternate.ip ∨ r.server.port = alternate.port then
        verdict (.failed .addressMismatch hosts)
      else verdict (.leaf .restricted hosts)

/-- Test I at the alternate address. A mapping that stays is a cone's. -/
def mappingStability (hosts : List Host) (mapped alternate : Host) : Inquiry :=
  ask alternate .none hosts fun
    | none => verdict (.leaf .unknown hosts)
    | some r =>
      if r.server ≠ alternate then verdict (.failed .addressMismatch hosts)
      else if r.mapped = mapped then portFiltering hosts alternate
      else verdict (.leaf .symmetric (hosts ++ [r.mapped]))

/-- Test II at the server. The answer must come from another address and another port. -/
def crossAddress (server : Host) (hosts : List Host) (identical : Bool) (mapped alternate : Host) :
    Inquiry :=
  ask server .ipAndPort hosts fun
    | some r =>
      if r.server.ip = server.ip ∨ r.server.port = server.port then
        verdict (.failed .addressMismatch hosts)
      else verdict (.leaf (if identical then .openInternet else .full) hosts)
    | none =>
      if identical then verdict (.leaf .symmetricUdpFirewall hosts)
      else mappingStability hosts mapped alternate

/-- Test I at the server. -/
def baseline (server : Host) : Inquiry :=
  ask server .none [] fun
    | none => verdict (.leaf .blocked [])
    | some r =>
      let hosts := [r.mapped]
      if r.server ≠ server then verdict (.failed .addressMismatch hosts)
      else match r.alternate with
        | none => verdict (.failed .noOtherAddress hosts)
        | some alternate => crossAddress server hosts r.identical r.mapped alternate

end Flowchart

/-- The whole procedure against a server. -/
def classify (server : Host) : Inquiry := Flowchart.baseline server

end NatBehavior
