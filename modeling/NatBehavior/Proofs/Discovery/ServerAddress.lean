import NatBehavior.Discovery.Detector

/-! Which of the addresses of a server is asked. The scan ends at the first address of the wanted
family, and the address that it kept on the way counts only where there is none. So addresses
behind the first of that family make no difference, and neither do others put in between. -/
namespace NatBehavior.Detector

variable {wantIpv4 : Bool} {addresses longer : List Endpoint} {server : Endpoint}

/-! ### The scan -/

/-- Where no address is of the wanted family, the one kept goes before those still to come. -/
theorem scanAddresses_eq (kept : Option Endpoint) (addresses : List Endpoint) :
    scanAddresses wantIpv4 kept addresses =
      (addresses.find? (·.isIpv4 = wantIpv4)).or (kept.or addresses.head?) := by
  -- another family's address may become the kept one
  induction addresses generalizing kept with
  | nil => exact (Option.or_none (o := kept)).symm
  | cons address rest ih =>
    rw [scanAddresses]
    split
    · rename_i hfamily
      rw [List.find?_cons_of_pos (by simpa using hfamily), Option.some_or]
    · rename_i hfamily
      rw [ih, List.find?_cons_of_neg (by simpa using hfamily), List.head?_cons]
      cases kept <;> rfl

theorem chooseAddress_eq (wantIpv4 : Bool) (addresses : List Endpoint) :
    chooseAddress wantIpv4 addresses =
      (addresses.find? (·.isIpv4 = wantIpv4)).or addresses.head? :=
  scanAddresses_eq none addresses

theorem chooseAddress_eq_none_iff : chooseAddress wantIpv4 addresses = none ↔ addresses = [] := by
  rw [chooseAddress_eq, Option.or_eq_none_iff, List.head?_eq_none_iff, and_iff_right_iff_imp]
  rintro rfl
  rfl

theorem mem_of_chooseAddress_eq_some (h : chooseAddress wantIpv4 addresses = some server) :
    server ∈ addresses := by
  rw [chooseAddress_eq, Option.or_eq_some_iff] at h
  rcases h with hfound | ⟨-, hhead⟩
  · exact List.mem_of_find?_eq_some hfound
  · exact List.mem_of_head? hhead

/-! ### The choice -/

/-- The server is the earliest address of the wanted family, or the first of all where none is of
that family. -/
inductive Preferred (wantIpv4 : Bool) : List Endpoint → Endpoint → Prop
  | earliest (front : List Endpoint) {server : Endpoint} (back : List Endpoint)
      (hfront : ∀ address ∈ front, address.isIpv4 ≠ wantIpv4)
      (hserver : server.isIpv4 = wantIpv4) : Preferred wantIpv4 (front ++ server :: back) server
  | first {server : Endpoint} (back : List Endpoint)
      (hnone : ∀ address ∈ server :: back, address.isIpv4 ≠ wantIpv4) :
      Preferred wantIpv4 (server :: back) server

theorem chooseAddress_eq_some_iff :
    chooseAddress wantIpv4 addresses = some server ↔ Preferred wantIpv4 addresses server := by
  rw [chooseAddress_eq, Option.or_eq_some_iff]
  constructor
  · rintro (hfound | ⟨hnone, hhead⟩)
    · obtain ⟨hserver, front, back, rfl, hfront⟩ := List.find?_eq_some_iff_append.mp hfound
      exact .earliest front back (by simpa using hfront) (by simpa using hserver)
    · obtain ⟨back, rfl⟩ := List.head?_eq_some_iff.mp hhead
      exact .first back (by simpa using hnone)
  · intro h
    cases h with
    | earliest front back hfront hserver =>
      refine .inl (List.find?_eq_some_iff_append.mpr ⟨decide_eq_true hserver, front, back, rfl, ?_⟩)
      simpa using hfront
    | first back hnone => exact .inr ⟨by simpa using hnone, rfl⟩

/-! ### Longer lists -/

/-- The second list has addresses of the other family put in among those of the first. -/
inductive Interspersed (wantIpv4 : Bool) : List Endpoint → List Endpoint → Prop
  | nil : Interspersed wantIpv4 [] []
  | keep (address : Endpoint) {addresses longer : List Endpoint}
      (h : Interspersed wantIpv4 addresses longer) :
      Interspersed wantIpv4 (address :: addresses) (address :: longer)
  | insert (other : Endpoint) (hother : other.isIpv4 ≠ wantIpv4) {addresses longer : List Endpoint}
      (h : Interspersed wantIpv4 addresses longer) :
      Interspersed wantIpv4 addresses (other :: longer)

theorem Interspersed.find?_eq (h : Interspersed wantIpv4 addresses longer) :
    longer.find? (·.isIpv4 = wantIpv4) = addresses.find? (·.isIpv4 = wantIpv4) := by
  induction h with
  | nil => rfl
  | keep address _ ih => rw [List.find?_cons, List.find?_cons, ih]
  | insert other hother _ ih => rw [List.find?_cons_of_neg (by simpa using hother), ih]

/-! ### Lists with an address of the wanted family -/

section

variable (hfamily : ∃ address ∈ addresses, address.isIpv4 = wantIpv4)
include hfamily

theorem isSome_find?_family : (addresses.find? (·.isIpv4 = wantIpv4)).isSome = true := by
  obtain ⟨address, haddress, hwanted⟩ := hfamily
  exact List.find?_isSome.mpr ⟨address, haddress, decide_eq_true hwanted⟩

theorem chooseAddress_eq_find? :
    chooseAddress wantIpv4 addresses = addresses.find? (·.isIpv4 = wantIpv4) := by
  rw [chooseAddress_eq, Option.or_of_isSome (isSome_find?_family hfamily)]

theorem chooseAddress_append (more : List Endpoint) :
    chooseAddress wantIpv4 (addresses ++ more) = chooseAddress wantIpv4 addresses := by
  have hfound := isSome_find?_family hfamily
  have hlonger : ((addresses ++ more).find? (·.isIpv4 = wantIpv4)) =
      addresses.find? (·.isIpv4 = wantIpv4) := by
    rw [List.find?_append, Option.or_of_isSome hfound]
  rw [chooseAddress_eq, hlonger, Option.or_of_isSome hfound, chooseAddress_eq_find? hfamily]

theorem chooseAddress_of_interspersed (h : Interspersed wantIpv4 addresses longer) :
    chooseAddress wantIpv4 longer = chooseAddress wantIpv4 addresses := by
  rw [chooseAddress_eq, h.find?_eq, Option.or_of_isSome (isSome_find?_family hfamily),
    chooseAddress_eq_find? hfamily]

end

/-! ### The server's address -/

variable {d : Detector}

theorem selectServer_eq_ok_iff :
    d.selectServer (.ok addresses) = .ok server ↔
      chooseAddress d.bind.isIpv4 addresses = some server := by
  rw [selectServer]
  cases chooseAddress d.bind.isIpv4 addresses <;> simp

theorem selectServer_eq_error_iff {e : DiscoveryError} :
    d.selectServer (.ok addresses) = .error e ↔
      addresses = [] ∧ e = .resolve d.server ⟨.notFound, "no addresses returned"⟩ := by
  rw [← @chooseAddress_eq_none_iff d.bind.isIpv4 addresses, selectServer]
  cases chooseAddress d.bind.isIpv4 addresses <;> simp [eq_comm]

/-- A list of addresses matters only by what is chosen from it. -/
theorem selectServer_congr {others : List Endpoint}
    (h : chooseAddress d.bind.isIpv4 others = chooseAddress d.bind.isIpv4 addresses) :
    d.selectServer (.ok others) = d.selectServer (.ok addresses) := by
  rw [selectServer, selectServer, h]

/-- Of the addresses that the server's name resolves to the preferred one is asked, and there is
one unless the name resolves to none. With an address of the socket's family among them, neither
addresses at the end nor any of the other family make a difference. -/
theorem selectServer_prefers_family (d : Detector) (addresses : List Endpoint) :
    (∀ server, d.selectServer (.ok addresses) = .ok server ↔
      Preferred d.bind.isIpv4 addresses server) ∧
    (∀ e, d.selectServer (.ok addresses) = .error e ↔
      addresses = [] ∧ e = .resolve d.server ⟨.notFound, "no addresses returned"⟩) ∧
    (∀ server, d.selectServer (.ok addresses) = .ok server → server ∈ addresses) ∧
    ((∃ address ∈ addresses, address.isIpv4 = d.bind.isIpv4) →
      (∀ more, d.selectServer (.ok (addresses ++ more)) = d.selectServer (.ok addresses)) ∧
      ∀ longer, Interspersed d.bind.isIpv4 addresses longer →
        d.selectServer (.ok longer) = d.selectServer (.ok addresses)) := by
  refine ⟨fun server => ?_, fun e => selectServer_eq_error_iff, fun server hserver => ?_,
    fun hfamily => ⟨fun more => ?_, fun longer hlonger => ?_⟩⟩
  · exact selectServer_eq_ok_iff.trans chooseAddress_eq_some_iff
  · exact mem_of_chooseAddress_eq_some (selectServer_eq_ok_iff.mp hserver)
  · exact selectServer_congr (chooseAddress_append hfamily more)
  · exact selectServer_congr (chooseAddress_of_interspersed hfamily hlonger)

/-- A socket of version 4 and a name with addresses of both versions, two more of version 6 put in
at the front and in the middle, and one of version 4 behind. -/
theorem selectServer_prefers_family_dual_stack :
    let v4 (n : UInt8) : Endpoint := .v4 ⟨198, 51, 100, n⟩ 3478
    let v6 (n : UInt16) : Endpoint := .v6 ⟨[0x2001, 0xDB8, 0, 0, 0, 0, 0, n], rfl⟩ 3478 0 0
    let addresses := [v6 1, v4 1, v4 2]
    let longer := [v6 2, v6 1, v4 1, v6 3, v4 2]
    (∃ address ∈ addresses, address.isIpv4 = standard.bind.isIpv4) ∧
    Interspersed standard.bind.isIpv4 addresses longer ∧
    standard.selectServer (.ok addresses) = .ok (v4 1) ∧ v4 1 ∈ addresses ∧
    standard.selectServer (.ok (addresses ++ [v4 3])) = .ok (v4 1) ∧
    standard.selectServer (.ok longer) = .ok (v4 1) := by
  intro v4 v6 addresses longer
  have hfamily : ∃ address ∈ addresses, address.isIpv4 = standard.bind.isIpv4 :=
    ⟨v4 1, by simp [addresses], rfl⟩
  have hlonger : Interspersed standard.bind.isIpv4 addresses longer :=
    .insert (v6 2) (by decide) (.keep (v6 1) (.keep (v4 1) (.insert (v6 3) (by decide)
      (.keep (v4 2) .nil))))
  have hpreferred : Preferred standard.bind.isIpv4 addresses (v4 1) :=
    .earliest [v6 1] [v4 2] (by decide) rfl
  obtain ⟨hchoice, -, hmem, hsame⟩ := selectServer_prefers_family standard addresses
  have hserver := (hchoice (v4 1)).mpr hpreferred
  exact ⟨hfamily, hlonger, hserver, hmem _ hserver, ((hsame hfamily).1 [v4 3]).trans hserver,
    ((hsame hfamily).2 longer hlonger).trans hserver⟩

end NatBehavior.Detector
