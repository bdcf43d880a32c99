import NatBehavior.Discovery.Flowchart

/-! Discovery in the networks that RFC 3489 has in mind: a server with two addresses and, in
front of the client, a translator that lets in what answers earlier requests. Every probe is a
contact that later probes may profit from, so the order of the probes is part of the verdict. -/
namespace NatBehavior

/-- A server at two addresses that share neither the IP address nor the port. Its answers come
from where RFC 3489 asks for, and at its primary address it tells the alternate one. -/
structure IdealServer where
  primary : Host
  alternate : Host
  /-- Where a request that is sent to an address is answered from. -/
  source : Host → ChangeRequest → Host
  changed : Host → ChangeRequest → Option Host
  other : Host → ChangeRequest → Option Host
  ip_ne : primary.ip ≠ alternate.ip
  port_ne : primary.port ≠ alternate.port
  source_primary : source primary .none = primary
  source_alternate : source alternate .none = alternate
  source_ipAndPort : source primary .ipAndPort = alternate
  ip_source_port : (source alternate .port).ip = alternate.ip
  port_source_port : (source alternate .port).port = primary.port
  told : (changed primary .none <|> other primary .none) = some alternate

/-- Any two such addresses are those of a server. -/
def IdealServer.standard (primary alternate : Host) (hip : primary.ip ≠ alternate.ip)
    (hport : primary.port ≠ alternate.port) : IdealServer where
  primary := primary
  alternate := alternate
  source dest
    | .none => dest
    | .ipAndPort => if dest = primary then alternate else primary
    | .port =>
      ⟨dest.ip, if dest.port = primary.port then alternate.port else primary.port, dest.canonical⟩
  changed dest _ := if dest = primary then some alternate else some primary
  other _ _ := none
  ip_ne := hip
  port_ne := hport
  source_primary := rfl
  source_alternate := rfl
  source_ipAndPort := if_pos rfl
  ip_source_port := rfl
  port_source_port := if_neg hport.symm
  told := by simp

/-- What stands between the client and the network. -/
structure Translator where
  /-- The client's address as a destination sees it. -/
  mapping : Host → Host
  /-- Whether a datagram from a source comes in, given the destinations that were contacted
  through the mapping it is sent to. -/
  admits : List Host → Host → Bool

namespace Translator

def closed (_ : List Host) (_ : Host) : Bool := false

def everyone (_ : List Host) (_ : Host) : Bool := true

/-- Open to contacted addresses, at any port. -/
def addresses (contacts : List Host) (source : Host) : Bool :=
  contacts.any fun contact => contact.ip = source.ip

def endpoints (contacts : List Host) (source : Host) : Bool := source ∈ contacts

end Translator

structure IdealNetwork where
  server : IdealServer
  translator : Translator
  /-- The client's own address. -/
  own : Host

namespace IdealNetwork

section

variable (net : IdealNetwork) (contacts : List Host) (dest : Host) (change : ChangeRequest)

/-- The server's answer, which reports where the request came from. -/
def answer : Stun.Message :=
  { Stun.Message.bindingResponse .zero with
    attributes := .xorMappedAddress (net.translator.mapping dest).toEndpoint ::
      (((net.server.changed dest change).map (.changedAddress ·.toEndpoint)).toList ++
        ((net.server.other dest change).map (.otherAddress ·.toEndpoint)).toList) }

/-- Whether an answer to a destination's request comes in. -/
def delivers (source : Host) : Bool :=
  net.translator.admits
    (contacts.filter fun contact => net.translator.mapping contact = net.translator.mapping dest)
    source

/-- What the client makes of the answer. It hears nothing exactly when the answer is held back. -/
def outcome : ProbeOutcome :=
  if net.delivers contacts dest (net.server.source dest change) then
    (Response.ofMessage (net.answer dest change) (net.server.source dest change).toEndpoint
      net.own.toEndpoint).map some
  else .ok none

def probe : StateM (List Host) ProbeOutcome := do
  modify (· ++ [dest])
  return net.outcome (← get) dest change

/-- What the procedure finds, given the contacts that were made before. -/
def classified (inquiry : Inquiry) : Classification := ((inquiry.run net.probe).run contacts).1

def found : Classification := net.classified [] (classify net.server.primary)

def response : Response where
  mapped := net.translator.mapping dest
  server := net.server.source dest change
  changed := net.server.changed dest change
  other := net.server.other dest change
  identical := net.translator.mapping dest = net.own

theorem ofMessage_answer :
    Response.ofMessage (net.answer dest change) (net.server.source dest change).toEndpoint
      net.own.toEndpoint = .ok (net.response dest change) := by
  unfold answer response
  cases net.server.changed dest change <;> cases net.server.other dest change <;>
    simp [Response.ofMessage, Stun.Message.bindingResponse, Stun.Message.mappedAddress,
      Stun.Message.xorMappedAddress, Stun.Message.changedAddress, Stun.Message.otherAddress]

theorem outcome_eq :
    net.outcome contacts dest change =
      if net.delivers contacts dest (net.server.source dest change) then
        .ok (some (net.response dest change))
      else .ok none := by
  rw [outcome, ofMessage_answer]
  rfl

theorem classified_ask_of_outcome (hosts : List Host) (next : Option Response → Inquiry)
    {heard : Option Response} (h : net.outcome (contacts ++ [dest]) dest change = .ok heard) :
    net.classified contacts (Flowchart.ask dest change hosts next) =
      net.classified (contacts ++ [dest]) (next heard) := by
  have hprobe : (net.probe dest change).run contacts =
      (net.outcome (contacts ++ [dest]) dest change, contacts ++ [dest]) := rfl
  rw [classified, Flowchart.ask, Inquiry.run, StateT.run_bind, hprobe, h]
  rfl

/-- One probe of the procedure: its destination is contacted, and the run goes on with what is
heard. -/
theorem classified_ask (hosts : List Host) (next : Option Response → Inquiry) :
    net.classified contacts (Flowchart.ask dest change hosts next) =
      if net.delivers (contacts ++ [dest]) dest (net.server.source dest change) then
        net.classified (contacts ++ [dest]) (next (some (net.response dest change)))
      else net.classified (contacts ++ [dest]) (next none) := by
  have houtcome := net.outcome_eq (contacts ++ [dest]) dest change
  split
  · rename_i hheard
    rw [if_pos hheard] at houtcome
    exact net.classified_ask_of_outcome contacts dest change hosts next houtcome
  · rename_i hsilent
    rw [if_neg hsilent] at houtcome
    exact net.classified_ask_of_outcome contacts dest change hosts next houtcome

/-! ### What each test finds -/

theorem classified_portFiltering (hosts : List Host) :
    net.classified contacts (Flowchart.portFiltering hosts net.server.alternate) =
      .leaf (if net.delivers (contacts ++ [net.server.alternate]) net.server.alternate
        (net.server.source net.server.alternate .port) then .restricted else .portRestricted)
        hosts := by
  rw [Flowchart.portFiltering, classified_ask]
  split
  · have hport :
        (net.server.source net.server.alternate .port).port ≠ net.server.alternate.port := by
      rw [net.server.port_source_port]
      exact net.server.port_ne
    simp only [response, net.server.ip_source_port, hport, ne_eq, not_true_eq_false, or_self,
      if_false]
    rfl
  · rfl

theorem classified_mappingStability (hosts : List Host) (mapped : Host) :
    net.classified contacts (Flowchart.mappingStability hosts mapped net.server.alternate) =
      if net.delivers (contacts ++ [net.server.alternate]) net.server.alternate
          net.server.alternate then
        if net.translator.mapping net.server.alternate = mapped then
          net.classified (contacts ++ [net.server.alternate])
            (Flowchart.portFiltering hosts net.server.alternate)
        else .leaf .symmetric (hosts ++ [net.translator.mapping net.server.alternate])
      else .leaf .unknown hosts := by
  rw [Flowchart.mappingStability, classified_ask, net.server.source_alternate]
  split
  · simp only [response, net.server.source_alternate, ne_eq, not_true_eq_false, if_false]
    split <;> rfl
  · rfl

theorem classified_crossAddress (hosts : List Host) (identical : Bool) (mapped : Host) :
    net.classified contacts
        (Flowchart.crossAddress net.server.primary hosts identical mapped net.server.alternate) =
      if net.delivers (contacts ++ [net.server.primary]) net.server.primary
          net.server.alternate then
        .leaf (if identical then .openInternet else .full) hosts
      else if identical then .leaf .symmetricUdpFirewall hosts
      else net.classified (contacts ++ [net.server.primary])
        (Flowchart.mappingStability hosts mapped net.server.alternate) := by
  rw [Flowchart.crossAddress, classified_ask, net.server.source_ipAndPort]
  split
  · simp only [response, net.server.source_ipAndPort, net.server.ip_ne.symm,
      net.server.port_ne.symm, or_self, if_false]
    rfl
  · cases identical <;> rfl

theorem classified_baseline :
    net.classified contacts (Flowchart.baseline net.server.primary) =
      if net.delivers (contacts ++ [net.server.primary]) net.server.primary
          net.server.primary then
        net.classified (contacts ++ [net.server.primary])
          (Flowchart.crossAddress net.server.primary
            [net.translator.mapping net.server.primary]
            (net.translator.mapping net.server.primary = net.own)
            (net.translator.mapping net.server.primary) net.server.alternate)
      else .leaf .blocked [] := by
  have htold : (net.response net.server.primary .none).alternate = some net.server.alternate :=
    net.server.told
  rw [Flowchart.baseline, classified_ask, net.server.source_primary]
  split
  · simp only [htold]
    simp only [response, net.server.source_primary, ne_eq, not_true_eq_false, if_false]
  · rfl

/-- The whole run, for any mapping and any rule of what comes in. -/
theorem found_eq :
    net.found =
      if net.delivers [net.server.primary] net.server.primary net.server.primary then
        if net.delivers [net.server.primary, net.server.primary] net.server.primary
            net.server.alternate then
          .leaf (if net.translator.mapping net.server.primary = net.own then .openInternet
            else .full) [net.translator.mapping net.server.primary]
        else if net.translator.mapping net.server.primary = net.own then
          .leaf .symmetricUdpFirewall [net.translator.mapping net.server.primary]
        else if net.delivers [net.server.primary, net.server.primary, net.server.alternate]
            net.server.alternate net.server.alternate then
          if net.translator.mapping net.server.alternate =
              net.translator.mapping net.server.primary then
            .leaf (if net.delivers [net.server.primary, net.server.primary, net.server.alternate,
                net.server.alternate] net.server.alternate
                (net.server.source net.server.alternate .port) then .restricted
              else .portRestricted) [net.translator.mapping net.server.primary]
          else .leaf .symmetric [net.translator.mapping net.server.primary,
            net.translator.mapping net.server.alternate]
        else .leaf .unknown [net.translator.mapping net.server.primary]
      else .leaf .blocked [] := by
  rw [found, classify, classified_baseline, classified_crossAddress, classified_mappingStability,
    classified_portFiltering]
  simp only [List.nil_append, List.cons_append, decide_eq_true_eq]

end

/-! ### Kinds of translators -/

variable {server : IdealServer} {mapping : Host → Host} {own : Host} {contacts : List Host}
  {dest source : Host}

theorem delivers_endpoints_iff :
    delivers ⟨server, ⟨mapping, Translator.endpoints⟩, own⟩ contacts dest source = true ↔
      source ∈ contacts ∧ mapping source = mapping dest := by
  simp [delivers, Translator.endpoints]

theorem delivers_addresses_iff :
    delivers ⟨server, ⟨mapping, Translator.addresses⟩, own⟩ contacts dest source = true ↔
      ∃ contact ∈ contacts, mapping contact = mapping dest ∧ contact.ip = source.ip := by
  simp [delivers, Translator.addresses]

theorem alternate_ne_primary : server.alternate ≠ server.primary := by
  intro h
  exact server.ip_ne (congrArg Host.ip h.symm)

theorem source_port_ne_primary : server.source server.alternate .port ≠ server.primary := by
  intro h
  exact server.ip_ne (by rw [← server.ip_source_port, h])

theorem source_port_ne_alternate : server.source server.alternate .port ≠ server.alternate := by
  intro h
  exact server.port_ne (by rw [← server.port_source_port, h])

theorem found_closed : found ⟨server, ⟨mapping, Translator.closed⟩, own⟩ = .leaf .blocked [] := by
  rw [found_eq]
  rfl

theorem found_everyone :
    found ⟨server, ⟨mapping, Translator.everyone⟩, own⟩ =
      .leaf (if mapping server.primary = own then .openInternet else .full)
        [mapping server.primary] := by
  rw [found_eq]
  rfl

/-- The alternate endpoint is not contacted before test II, and the alternate address is
contacted at one port only before test III. -/
theorem found_endpoints :
    found ⟨server, ⟨mapping, Translator.endpoints⟩, own⟩ =
      if mapping server.primary = own then
        .leaf .symmetricUdpFirewall [mapping server.primary]
      else if mapping server.alternate = mapping server.primary then
        .leaf .portRestricted [mapping server.primary]
      else .leaf .symmetric [mapping server.primary, mapping server.alternate] := by
  rw [found_eq]
  simp only [delivers_endpoints_iff, List.mem_cons, List.not_mem_nil, or_false, or_self, or_true,
    true_and, alternate_ne_primary, source_port_ne_primary, source_port_ne_alternate, false_and,
    if_true, if_false]

/-- The alternate address is not contacted before test II, but it is before test III. -/
theorem found_addresses :
    found ⟨server, ⟨mapping, Translator.addresses⟩, own⟩ =
      if mapping server.primary = own then
        .leaf .symmetricUdpFirewall [mapping server.primary]
      else if mapping server.alternate = mapping server.primary then
        .leaf .restricted [mapping server.primary]
      else .leaf .symmetric [mapping server.primary, mapping server.alternate] := by
  rw [found_eq]
  simp only [delivers_addresses_iff, List.mem_cons, List.not_mem_nil, or_false, exists_eq_or_imp,
    exists_eq_left, server.ip_ne, server.ip_source_port, true_and, and_false, or_self, or_true,
    if_true, if_false]

/-- Discovery names the translator that stands in front of the client, and tells the addresses
that the server saw. -/
theorem found_ideal (server : IdealServer) (own : Host) :
    (∀ mapping, found ⟨server, ⟨mapping, Translator.closed⟩, own⟩ = .leaf .blocked []) ∧
    found ⟨server, ⟨fun _ => own, Translator.everyone⟩, own⟩ = .leaf .openInternet [own] ∧
    found ⟨server, ⟨fun _ => own, Translator.endpoints⟩, own⟩ =
      .leaf .symmetricUdpFirewall [own] ∧
    (∀ external, external ≠ own →
      found ⟨server, ⟨fun _ => external, Translator.everyone⟩, own⟩ = .leaf .full [external] ∧
      found ⟨server, ⟨fun _ => external, Translator.addresses⟩, own⟩ =
        .leaf .restricted [external] ∧
      found ⟨server, ⟨fun _ => external, Translator.endpoints⟩, own⟩ =
        .leaf .portRestricted [external]) ∧
    (∀ mapping, mapping server.primary ≠ own →
      mapping server.primary ≠ mapping server.alternate →
      ∀ admits, admits = Translator.addresses ∨ admits = Translator.endpoints →
        found ⟨server, ⟨mapping, admits⟩, own⟩ =
          .leaf .symmetric [mapping server.primary, mapping server.alternate]) := by
  refine ⟨fun mapping => found_closed, ?_, ?_, ?_, ?_⟩
  · rw [found_everyone, if_pos rfl]
  · rw [found_endpoints, if_pos rfl]
  · intro external htranslated
    refine ⟨?_, ?_, ?_⟩
    · rw [found_everyone, if_neg htranslated]
    · rw [found_addresses, if_neg htranslated, if_pos rfl]
    · rw [found_endpoints, if_neg htranslated, if_pos rfl]
  · intro mapping htranslated hsplit admits hadmits
    rcases hadmits with rfl | rfl
    · rw [found_addresses, if_neg htranslated, if_neg hsplit.symm]
    · rw [found_endpoints, if_neg htranslated, if_neg hsplit.symm]

/-- A server at two documentation addresses, and a client behind one more. -/
theorem found_ideal_documentation :
    let server := IdealServer.standard (.ofIp (.v4 ⟨198, 51, 100, 1⟩) 3478)
      (.ofIp (.v4 ⟨198, 51, 100, 2⟩) 3479) (by decide) (by decide)
    let own : Host := .ofIp (.v4 ⟨192, 168, 1, 2⟩) 40000
    let external : Host := .ofIp (.v4 ⟨203, 0, 113, 7⟩) 50000
    let mapping (dest : Host) : Host := .ofIp (.v4 ⟨203, 0, 113, 7⟩) dest.port
    external ≠ own ∧ mapping server.primary ≠ own ∧
    mapping server.primary ≠ mapping server.alternate ∧
    found ⟨server, ⟨fun _ => external, Translator.addresses⟩, own⟩ =
      .leaf .restricted [external] ∧
    found ⟨server, ⟨mapping, Translator.endpoints⟩, own⟩ =
      .leaf .symmetric [mapping server.primary, mapping server.alternate] := by
  intro server own external mapping
  have hexternal : external ≠ own := by decide
  have htranslated : mapping server.primary ≠ own := by decide
  have hsplit : mapping server.primary ≠ mapping server.alternate := by decide
  obtain ⟨_, _, _, hcone, hsymmetric⟩ := found_ideal server own
  exact ⟨hexternal, htranslated, hsplit, (hcone external hexternal).2.1,
    hsymmetric mapping htranslated hsplit Translator.endpoints (.inr rfl)⟩

end IdealNetwork

end NatBehavior
