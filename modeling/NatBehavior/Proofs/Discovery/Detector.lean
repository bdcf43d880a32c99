import NatBehavior.Proofs.Discovery.Probes
import NatBehavior.Proofs.Discovery.ServerAddress

/-! How a whole run ends, whatever the resolver, the machine and the network do. A run that cannot
start fails with what barred it, and every failure is told by the verdict too. -/
namespace NatBehavior.Detector

open Inquiry Flowchart

variable {ε σ : Type} {d : Detector}
  {resolve : String → Stoppable ε σ (Except IoError (List Endpoint))}
  {bind : Endpoint → Stoppable ε σ (Except IoError (Socket (Stoppable ε σ)))} {s s' : σ}

/-- What keeps a run from its first probe, and the state that the resolver or the binding of the
socket leave behind. -/
inductive Barred (d : Detector) (resolve : String → Stoppable ε σ (Except IoError (List Endpoint)))
    (bind : Endpoint → Stoppable ε σ (Except IoError (Socket (Stoppable ε σ)))) (s : σ) :
    DiscoveryError → σ → Prop
  | unresolved {e : IoError} {t : σ}
      (hresolve : ((resolve d.server).run).run s = (.ok (.error e), t)) :
    Barred d resolve bind s (.resolve d.server e) t
  | noAddress {t : σ} (hresolve : ((resolve d.server).run).run s = (.ok (.ok []), t)) :
    Barred d resolve bind s (.resolve d.server ⟨.notFound, "no addresses returned"⟩) t
  | unbound {addresses : List Endpoint} {t u : σ} {e : IoError}
      (hresolve : ((resolve d.server).run).run s = (.ok (.ok addresses), t))
      (haddresses : addresses ≠ []) (hbind : ((bind d.bind).run).run t = (.ok (.error e), u)) :
    Barred d resolve bind s (.io e) u

theorem discover_of_error {resolved : Except IoError (List Endpoint)} {e : DiscoveryError}
    (hresolve : ((resolve d.server).run).run s = (.ok resolved, s'))
    (hselect : d.selectServer resolved = .error e) :
    ((d.discover resolve bind).run).run s = (.ok (.failed e []), s') := by
  rw [discover, run_bind_of_ok hresolve, hselect]
  rfl

section

variable {resolved : Except IoError (List Endpoint)} {server : Endpoint} {t : σ}
  (hresolve : ((resolve d.server).run).run s = (.ok resolved, s'))
  (hselect : d.selectServer resolved = .ok server)
include hresolve hselect

theorem discover_of_bind_error {e : IoError}
    (hbind : ((bind d.bind).run).run s' = (.ok (.error e), t)) :
    ((d.discover resolve bind).run).run s = (.ok (.failed (.io e) []), t) := by
  rw [discover, run_bind_of_ok hresolve, hselect]
  dsimp only
  rw [run_bind_of_ok hbind]
  rfl

theorem discover_of_bind_ok {socket : Socket (Stoppable ε σ)}
    (hbind : ((bind d.bind).run).run s' = (.ok (.ok socket), t)) :
    ((d.discover resolve bind).run).run s = ((d.discoverWith socket server).run).run t := by
  rw [discover, run_bind_of_ok hresolve, hselect]
  dsimp only
  rw [run_bind_of_ok hbind]

end

/-- Nothing was sent by a run that could not start. -/
theorem discover_of_barred {e : DiscoveryError} (h : d.Barred resolve bind s e s') :
    ((d.discover resolve bind).run).run s = (.ok (.failed e []), s') := by
  cases h with
  | unresolved hresolve => exact discover_of_error hresolve rfl
  | noAddress hresolve => exact discover_of_error hresolve rfl
  | @unbound addresses t u e hresolve haddresses hbind =>
    obtain ⟨server, hchoose⟩ := Option.ne_none_iff_exists'.mp
      (mt chooseAddress_eq_none_iff.mp haddresses : chooseAddress d.bind.isIpv4 addresses ≠ none)
    have hselect : d.selectServer (.ok addresses) = .ok server := by
      rw [selectServer, hchoose]
    exact discover_of_bind_error hresolve hselect hbind

/-- Whether the verdict of a run and its failure tell the same. -/
def Consistent (c : Classification) : Prop := c.natType = .error ↔ c.error ≠ none

theorem consistent_failed (e : DiscoveryError) (hosts : List Host) :
    Consistent (.failed e hosts) :=
  iff_of_true rfl (Option.some_ne_none e)

theorem consistent_found (server : Host) (outcomes : Nat → ProbeOutcome) :
    Consistent (found server outcomes) := by
  rw [Consistent, ne_eq, error_found_eq_none_iff, Classical.not_not]

/-- A run over a socket that was not stopped finds what the flowchart says of the outcomes of its
probes. -/
theorem exists_found_of_discoverWith {socket : Socket (Stoppable ε σ)} {server : Endpoint}
    {c : Classification} (h : ((d.discoverWith socket server).run).run s = (.ok c, s')) :
    ∃ outcomes, ((classify (.ofEndpoint server)).steps
        (socket.probe d.retransmission d.software) s).mapM Step.answer = .ok outcomes ∧
      found (.ofEndpoint server) (thenSilence outcomes) = c := by
  have hreplay : ((((classify (.ofEndpoint server)).run
      (socket.probe d.retransmission d.software)).run).run s).1 = _ := run_eq_replay_steps _ s
  rw [discoverWith] at h
  rw [h] at hreplay
  dsimp only at hreplay
  cases hanswers : ((classify (.ofEndpoint server)).steps
      (socket.probe d.retransmission d.software) s).mapM Step.answer with
  | error e =>
    rw [hanswers] at hreplay
    cases hreplay
  | ok outcomes =>
    rw [hanswers] at hreplay
    exact ⟨outcomes, rfl, (found_eq_replay _ _).trans (Except.ok.inj hreplay).symm⟩

/-- However a run ends, its verdict is an error exactly where it failed. -/
theorem consistent_discover {c : Classification}
    (h : ((d.discover resolve bind).run).run s = (.ok c, s')) : Consistent c := by
  rcases hresolve : ((resolve d.server).run).run s with ⟨stop | resolved, t⟩
  · rw [discover, run_bind_of_error hresolve] at h
    cases h
  · cases hselect : d.selectServer resolved with
    | error e =>
      rw [discover_of_error hresolve hselect] at h
      cases h
      exact consistent_failed e []
    | ok server =>
      rcases hbind : ((bind d.bind).run).run t with ⟨stop | e | socket, u⟩
      · rw [discover, run_bind_of_ok hresolve, hselect] at h
        dsimp only at h
        rw [run_bind_of_error hbind] at h
        cases h
      · rw [discover_of_bind_error hresolve hselect hbind] at h
        cases h
        exact consistent_failed _ []
      · rw [discover_of_bind_ok hresolve hselect hbind] at h
        obtain ⟨outcomes, -, rfl⟩ := exists_found_of_discoverWith h
        exact consistent_found _ _

end NatBehavior.Detector
