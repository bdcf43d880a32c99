import NatBehavior.Host.Json
import NatBehavior.Proofs.Address.ZeroRun
import NatBehavior.Proofs.Host
import NatBehavior.Proofs.Text.JsonString

/-! The texts of hosts. Each host has one text, which is read back as the host, and hosts are told
apart by their texts; what a host was read from may have had another form. -/
namespace NatBehavior.Host

variable {host host' : Host}

theorem ip_ne_mapped (host : Host) (mapped : Ipv4) : host.ip ≠ .v6 (.ofIpv4 mapped) := by
  intro h
  have hcanonical := host.canonical
  rw [h, Ip.canonical_mapped] at hcanonical
  cases hcanonical

theorem alike_ofIp (ip : Ip) (port : UInt16) : (ofIp ip port).ip.Alike ip :=
  Ip.alike_iff.mpr ip.canonical_canonical

theorem ofJson?_json (host : Host) : ofJson? host.json.text.toList = some host := by
  have htext : host.json.text.toList = JsonValue.quote (toString host) := String.toList_ofList
  have hhost : (toString host).toList = host.text := String.toList_ofList
  rw [ofJson?, htext, JsonString.ofText?_quote]
  exact (congrArg ofText? hhost).trans (ofText?_text host)

theorem text_inj : host.text = host'.text ↔ host = host' := by
  constructor
  · intro h
    have hread := ofText?_text host
    rw [h, ofText?_text] at hread
    exact (Option.some.inj hread).symm
  · rintro rfl
    rfl

/-- The text of a version 6 address in brackets, and the port behind it. -/
theorem text_of_v6 {ip : Ipv6} (h : host.ip = .v6 ip) :
    host.text = '[' :: ip.text ++ ']' :: ':' :: Nat.toDigits 10 host.port.toNat := by
  simp [text, toEndpoint, h, Endpoint.ofIp, Endpoint.text, Endpoint.scopeText]

theorem mapped?_eq_none {ip : Ipv6} (h : host.ip = .v6 ip) : ip.mapped? = none := by
  cases hmapped : ip.mapped? with
  | none => rfl
  | some mapped =>
    obtain rfl := Ipv6.mapped?_eq_some_iff.mp hmapped
    exact absurd h (host.ip_ne_mapped mapped)

/-- No host has a mapped address, whatever it came from, and the address it came from is one and the
same as its own. Its text, and its text in JSON, are read back as the host. So hosts are told apart
by their texts, whatever forms these were read from, and a text that was printed is printed again.
In the text of a version 6 address two colons stand for the first longest run of zeros. -/
theorem text_canonical :
    (∀ (host : Host) (mapped : Ipv4), host.ip ≠ .v6 (.ofIpv4 mapped)) ∧
    (∀ ip port, (ofIp ip port).ip.Alike ip ∧ (ofIp ip port).port = port) ∧
    (∀ host, ofText? host.text = some host ∧ ofJson? host.json.text.toList = some host) ∧
    (∀ cs cs' host host', ofText? cs = some host → ofText? cs' = some host' →
      (host = host' ↔ host.text = host'.text)) ∧
    (∀ cs host, ofText? cs = some host → (ofText? host.text).map text = some host.text) ∧
    ∀ (host : Host) ip, host.ip = .v6 ip →
      ∃ front n back, Ipv6.IsLongestRun ip.groups front n back ∧
        host.text = '[' :: (if n < 2 then Ipv6.joinGroups ip.groups
          else Ipv6.joinGroups front ++ ':' :: ':' :: Ipv6.joinGroups back) ++
            ']' :: ':' :: Nat.toDigits 10 host.port.toNat := by
  refine ⟨ip_ne_mapped, fun ip port => ⟨alike_ofIp ip port, rfl⟩,
    fun host => ⟨ofText?_text host, ofJson?_json host⟩, ?_, ?_, ?_⟩
  · intro cs cs' host host' _ _
    exact text_inj.symm
  · intro cs host _
    rw [ofText?_text, Option.map_some]
  · intro host ip h
    obtain ⟨front, n, back, hrun, htext⟩ := Ipv6.text_of_plain (mapped?_eq_none h)
    exact ⟨front, n, back, hrun, by rw [text_of_v6 h, htext]⟩

/-- A mapped address with a scope, and an address with two runs of zeros as long, both in capitals
and the latter with dotted decimal at its end. -/
theorem text_canonical_forms :
    let ip : Ipv6 := ⟨[0x2001, 0xDB8, 0, 0, 1, 0, 0, 1], rfl⟩
    let host := ofIp (.v4 ⟨192, 0, 2, 1⟩) 80
    let host' := ofIp (.v6 ip) 80
    ofText? "[0:0::00:FFFF:C000:0201%5]:00080".toList = some host ∧
    ofText? "[2001:DB8:0:0:1:0:0.0.0.1]:80".toList = some host' ∧
    host.text ≠ host'.text ∧ (ofText? host'.text).map text = some "[2001:db8::1:0:0:1]:80".toList ∧
    ∃ front n back, Ipv6.IsLongestRun ip.groups front n back := by
  intro ip host host'
  obtain ⟨-, -, -, hequal, hfixed, hgap⟩ := text_canonical
  have hmapped : ofText? "[0:0::00:FFFF:C000:0201%5]:00080".toList = some host := by decide +kernel
  have hzeros : ofText? "[2001:DB8:0:0:1:0:0.0.0.1]:80".toList = some host' := by decide +kernel
  have htext : host'.text = "[2001:db8::1:0:0:1]:80".toList := by decide +kernel
  have hne : host ≠ host' := by decide
  obtain ⟨front, n, back, hrun, -⟩ := hgap host' ip rfl
  refine ⟨hmapped, hzeros, ?_, (hfixed _ _ hzeros).trans (congrArg some htext), front, n, back,
    hrun⟩
  exact fun h => hne ((hequal _ _ _ _ hmapped hzeros).mpr h)

end NatBehavior.Host
