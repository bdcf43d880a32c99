import NatBehavior.Host

/-! Which endpoints are the same host: those with one port whose addresses are the same or differ
in that one of them is the other as dual-stack sockets report it. -/
namespace NatBehavior

namespace Ipv6

theorem mapped?_ofIpv4 (ip : Ipv4) : (ofIpv4 ip).mapped? = some ip := by
  have hoctets : (embedded ip).flatMap Bytes.ofWord16 = ip.octets := by
    simp [embedded, Bytes.ofWord16_word16, Ipv4.octets]
  have hfront : (ofIpv4 ip).groups.take 6 = mappedFront := rfl
  have hback : (ofIpv4 ip).groups.drop 6 = embedded ip := rfl
  rw [mapped?, if_pos hfront, hback, hoctets, Ipv4.ofOctets?_octets]

theorem eq_embedded_of_ofOctets? {groups : List UInt16} (hlength : groups.length = 2) {ip : Ipv4}
    (h : Ipv4.ofOctets? (groups.flatMap Bytes.ofWord16) = some ip) : groups = embedded ip := by
  match groups, hlength with
  | [high, low], _ =>
    obtain rfl := Option.some.inj h
    simp only [embedded, Bytes.word16_ofWord16]

theorem mapped?_eq_some_iff {address : Ipv6} {ip : Ipv4} :
    address.mapped? = some ip ↔ address = ofIpv4 ip := by
  constructor
  · intro h
    unfold mapped? at h
    split at h
    · rename_i hfront
      have hlength : (address.groups.drop 6).length = 2 := by
        rw [List.length_drop, address.length_groups]
      apply Ipv6.ext
      rw [← List.take_append_drop 6 address.groups, hfront, eq_embedded_of_ofOctets? hlength h]
      rfl
    · cases h
  · rintro rfl
    exact mapped?_ofIpv4 ip

end Ipv6

namespace Ip

/-- One address in two forms: the same, or a version 4 address and the version 6 address that maps
it. -/
inductive Alike : Ip → Ip → Prop
  | same (ip : Ip) : Alike ip ip
  | mapped (ip : Ipv4) : Alike (.v4 ip) (.v6 (.ofIpv4 ip))
  | unmapped (ip : Ipv4) : Alike (.v6 (.ofIpv4 ip)) (.v4 ip)

@[simp] theorem canonical_mapped (ip : Ipv4) : (Ip.v6 (.ofIpv4 ip)).canonical = .v4 ip := by
  rw [canonical, Ipv6.mapped?_ofIpv4]

theorem canonical_cases (ip : Ip) :
    ip.canonical = ip ∨ ∃ mapped, ip = .v6 (.ofIpv4 mapped) ∧ ip.canonical = .v4 mapped := by
  cases ip with
  | v4 ip => exact .inl rfl
  | v6 ip =>
    cases h : ip.mapped? with
    | none => exact .inl (by rw [canonical, h])
    | some mapped =>
      obtain rfl := Ipv6.mapped?_eq_some_iff.mp h
      exact .inr ⟨mapped, rfl, canonical_mapped mapped⟩

theorem alike_iff {x y : Ip} : x.Alike y ↔ x.canonical = y.canonical := by
  constructor
  · rintro (_ | ip | ip)
    · rfl
    · exact (canonical_mapped ip).symm
    · exact canonical_mapped ip
  · intro h
    rcases canonical_cases x with hx | ⟨ip, rfl, hx⟩ <;>
      rcases canonical_cases y with hy | ⟨ip', rfl, hy⟩ <;> rw [hx, hy] at h
    · exact h ▸ .same x
    · exact h ▸ .mapped ip'
    · exact h ▸ .unmapped ip
    · obtain rfl := Ip.v4.inj h
      exact .same _

end Ip

/-- Endpoints that differ only in the form of their addresses, and in scopes and flow labels. -/
structure Endpoint.Alike (x y : Endpoint) : Prop where
  ip : x.ip.Alike y.ip
  port : x.port = y.port

theorem Host.ofEndpoint_eq_iff {x y : Endpoint} :
    Host.ofEndpoint x = Host.ofEndpoint y ↔ x.Alike y := by
  constructor
  · intro h
    exact ⟨Ip.alike_iff.mpr (congrArg Host.ip h), congrArg Host.port h⟩
  · rintro ⟨hip, hport⟩
    exact Host.ext (Ip.alike_iff.mp hip) hport

end NatBehavior
