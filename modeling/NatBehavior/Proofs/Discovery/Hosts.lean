import NatBehavior.Proofs.Discovery.Probes

/-! The hosts of a classification. The first response is recorded before it is checked, later ones
only once they passed and only where they show another mapping, so a run records the mapping that
the server saw and, for a symmetric translation, the one that the alternate address saw. -/
namespace NatBehavior.Flowchart

open Inquiry

variable {server alternate : Host} {outcomes : Nat → ProbeOutcome} {dest : Host}
  {change : ChangeRequest} {hosts : List Host} {next : Option Response → Inquiry}
  {recorded : (Nat → ProbeOutcome) → List Host}

/-- The mapping that an outcome shows, where it is a response. -/
def mappedOf : ProbeOutcome → List Host
  | .ok (some r) => [r.mapped]
  | _ => []

theorem mappedOf_eq_nil_iff {outcome : ProbeOutcome} :
    mappedOf outcome = [] ↔ ∀ r, outcome ≠ .ok (some r) := by
  rcases outcome with e | _ | r
  · simp [mappedOf]
  · simp [mappedOf]
  · simp [mappedOf]

theorem length_mappedOf_le (outcome : ProbeOutcome) : (mappedOf outcome).length ≤ 1 := by
  rcases outcome with e | _ | r
  · exact Nat.zero_le 1
  · exact Nat.zero_le 1
  · exact Nat.le_refl 1

/-! ### What is recorded -/

theorem Course.hosts_eq {c : Classification} (h : Course server outcomes c) :
    c.hosts = mappedOf (outcomes 0) ++
      if c.natType = .symmetric then mappedOf (outcomes 2) else [] := by
  cases h with
  | failedFirst h | blocked h | strayFirst h _ | noOtherAddress h _ _ =>
    rw [h]
    rfl
  | failedSecond base _ | straySecond base _ _ | openInternet base _ _ _ _
  | symmetricUdpFirewall base _ _ | full base _ _ _ _ =>
    rw [base.answered]
    rfl
  | failedThird filtered _ | unknown filtered _ | strayThird filtered _ _ =>
    rw [filtered.answered]
    rfl
  | symmetric filtered h _ _ =>
    rw [filtered.answered, h]
    rfl
  | failedFourth stable _ | portRestricted stable _ | strayFourth stable _ _
  | restricted stable _ _ _ =>
    rw [stable.answered]
    rfl

theorem hosts_found_eq (server : Host) (outcomes : Nat → ProbeOutcome) :
    (found server outcomes).hosts = mappedOf (outcomes 0) ++
      if (found server outcomes).natType = .symmetric then mappedOf (outcomes 2) else [] :=
  (course_found server outcomes).hosts_eq

theorem hosts_found_of_ne_symmetric (h : (found server outcomes).natType ≠ .symmetric) :
    (found server outcomes).hosts = mappedOf (outcomes 0) := by
  rw [hosts_found_eq, if_neg h, List.append_nil]

theorem exists_hosts_found_of_symmetric (h : (found server outcomes).natType = .symmetric) :
    ∃ first third, outcomes 0 = .ok (some first) ∧ outcomes 2 = .ok (some third) ∧
      third.mapped ≠ first.mapped ∧
        (found server outcomes).hosts = [first.mapped, third.mapped] := by
  obtain ⟨first, alternate, third, filtered, hthird, -, hmapped⟩ := natType_found_eq_iff.mp h
  refine ⟨first, third, filtered.answered, hthird, hmapped, ?_⟩
  rw [hosts_found_eq, if_pos h, filtered.answered, hthird]
  rfl

theorem nodup_hosts_found (server : Host) (outcomes : Nat → ProbeOutcome) :
    (found server outcomes).hosts.Nodup := by
  by_cases h : (found server outcomes).natType = .symmetric
  · obtain ⟨first, third, -, -, hmapped, hhosts⟩ := exists_hosts_found_of_symmetric h
    rw [hhosts]
    simpa using hmapped.symm
  · rw [hosts_found_of_ne_symmetric h]
    rcases outcomes 0 with e | _ | r <;> simp [mappedOf]

theorem head?_hosts_found {first : Response} (h : outcomes 0 = .ok (some first)) :
    (found server outcomes).hosts.head? = some first.mapped := by
  rw [hosts_found_eq, h]
  rfl

theorem hosts_found_eq_nil_iff :
    (found server outcomes).hosts = [] ↔ ∀ first, outcomes 0 ≠ .ok (some first) := by
  constructor
  · intro hnil first hfirst
    have hhead : (found server outcomes).hosts.head? = some first.mapped :=
      head?_hosts_found hfirst
    rw [hnil] at hhead
    cases hhead
  · intro hnone
    by_cases h : (found server outcomes).natType = .symmetric
    · obtain ⟨first, -, hfirst, -⟩ := exists_hosts_found_of_symmetric h
      exact absurd hfirst (hnone first)
    · rw [hosts_found_of_ne_symmetric h]
      exact mappedOf_eq_nil_iff.mpr hnone

theorem length_hosts_found_le (h : (found server outcomes).natType ≠ .symmetric) :
    (found server outcomes).hosts.length ≤ 1 := by
  rw [hosts_found_of_ne_symmetric h]
  exact length_mappedOf_le (outcomes 0)

theorem length_hosts_found_eq_two_iff :
    (found server outcomes).hosts.length = 2 ↔ (found server outcomes).natType = .symmetric := by
  by_cases h : (found server outcomes).natType = .symmetric
  · obtain ⟨first, third, -, -, -, hhosts⟩ := exists_hosts_found_of_symmetric h
    rw [hhosts]
    exact iff_of_true rfl h
  · have hlength := length_hosts_found_le h
    exact iff_of_false (by omega) h

/-! ### What is refused -/

/-- A source that is not where the server was asked to answer from. -/
def Stray (dest : Host) : ChangeRequest → Host → Prop
  | .none, source => source ≠ dest
  | .ipAndPort, source => source.ip = dest.ip ∨ source.port = dest.port
  | .port, source => source.ip ≠ dest.ip ∨ source.port = dest.port

/-- A response from a stray source ends the inquiry with what was recorded before. -/
def RefusesStray (recorded : (Nat → ProbeOutcome) → List Host) (inquiry : Inquiry) : Prop :=
  ∀ outcomes i dest change r, (inquiry.replay outcomes).probes[i]? = some (dest, change) →
    outcomes i = .ok (some r) → Stray dest change r.server →
      (inquiry.replay outcomes).classification = .failed .addressMismatch (recorded outcomes)

theorem refusesStray_verdict (c : Classification) : RefusesStray recorded (verdict c) := by
  intro outcomes i dest change r hasked
  cases hasked

theorem refusesStray_ask
    (hstray : ∀ outcomes r, outcomes 0 = .ok (some r) → Stray dest change r.server →
      next (some r) = verdict (.failed .addressMismatch (recorded outcomes)))
    (hnext : ∀ outcomes answer, outcomes 0 = .ok answer →
      RefusesStray (fun _ => recorded outcomes) (next answer)) :
    RefusesStray recorded (ask dest change hosts next) := by
  intro outcomes i dest' change' r hasked hanswer hsource
  cases houtcome : outcomes 0 with
  | error e =>
    rw [probes_ask_error houtcome] at hasked
    cases i with
    | zero => cases hanswer.symm.trans houtcome
    | succ i => cases hasked
  | ok answer =>
    rw [probes_ask_ok houtcome] at hasked
    rw [replay_ask_ok houtcome]
    cases i with
    | zero =>
      cases hasked
      obtain rfl : some r = answer := Except.ok.inj (hanswer.symm.trans houtcome)
      rw [hstray outcomes r hanswer hsource]
      rfl
    | succ i => exact hnext outcomes answer houtcome _ i dest' change' r hasked hanswer hsource

theorem refusesStray_portFiltering :
    RefusesStray (fun _ => hosts) (portFiltering hosts alternate) := by
  refine refusesStray_ask (fun _ r _ hsource => if_pos hsource) fun _ answer _ => ?_
  cases answer with
  | none => exact refusesStray_verdict _
  | some r =>
    dsimp only
    split <;> exact refusesStray_verdict _

theorem refusesStray_mappingStability {mapped : Host} :
    RefusesStray (fun _ => hosts) (mappingStability hosts mapped alternate) := by
  refine refusesStray_ask (fun _ r _ hsource => if_pos hsource) fun _ answer _ => ?_
  cases answer with
  | none => exact refusesStray_verdict _
  | some r =>
    dsimp only
    split
    · exact refusesStray_verdict _
    · split
      · exact refusesStray_portFiltering
      · exact refusesStray_verdict _

theorem refusesStray_crossAddress {identical : Bool} {mapped : Host} :
    RefusesStray (fun _ => hosts) (crossAddress server hosts identical mapped alternate) := by
  refine refusesStray_ask (fun _ r _ hsource => if_pos hsource) fun _ answer _ => ?_
  cases answer with
  | none =>
    dsimp only
    split
    · exact refusesStray_verdict _
    · exact refusesStray_mappingStability
  | some r =>
    dsimp only
    split <;> exact refusesStray_verdict _

theorem refusesStray_classify (server : Host) :
    RefusesStray (fun outcomes => mappedOf (outcomes 0)) (classify server) := by
  refine refusesStray_ask ?_ fun outcomes answer hanswer => ?_
  · intro outcomes r hanswer hsource
    rw [hanswer]
    exact if_pos hsource
  · rw [hanswer]
    cases answer with
    | none => exact refusesStray_verdict _
    | some r =>
      dsimp only
      split
      · exact refusesStray_verdict _
      · split
        · exact refusesStray_verdict _
        · exact refusesStray_crossAddress

/-- The hosts of a run are what the server saw and, for a symmetric translation alone, what the
alternate address saw, which is never the same. A later response that came from where it should not
ends the run and is not recorded. -/
theorem hosts_recorded (server : Host) (outcomes : Nat → ProbeOutcome) :
    (found server outcomes).hosts.Nodup ∧
    ((found server outcomes).hosts = [] ↔ ∀ r, outcomes 0 ≠ .ok (some r)) ∧
    (∀ first, outcomes 0 = .ok (some first) →
      (found server outcomes).hosts.head? = some first.mapped) ∧
    ((found server outcomes).hosts.length = 2 ↔ (found server outcomes).natType = .symmetric) ∧
    ((found server outcomes).natType = .symmetric →
      ∃ first third, outcomes 0 = .ok (some first) ∧ outcomes 2 = .ok (some third) ∧
        (found server outcomes).hosts = [first.mapped, third.mapped]) ∧
    ((found server outcomes).error ≠ none → (found server outcomes).hosts.length ≤ 1) ∧
    ∀ i dest change r, (probes server outcomes)[i]? = some (dest, change) →
      outcomes i = .ok (some r) → Stray dest change r.server →
        found server outcomes = .failed .addressMismatch (mappedOf (outcomes 0)) := by
  refine ⟨nodup_hosts_found server outcomes, hosts_found_eq_nil_iff, fun _ => head?_hosts_found,
    length_hosts_found_eq_two_iff, ?_, ?_, ?_⟩
  · intro hsymmetric
    obtain ⟨first, third, hfirst, hthird, -, hhosts⟩ := exists_hosts_found_of_symmetric hsymmetric
    exact ⟨first, third, hfirst, hthird, hhosts⟩
  · intro herror
    apply length_hosts_found_le
    intro hsymmetric
    refine herror (error_found_eq_none_iff.mpr ?_)
    rw [hsymmetric]
    decide
  · rw [found_eq_replay]
    exact refusesStray_classify server outcomes

/-- A third response shows another mapping. From the alternate address it is recorded, from another
one only what the server saw is. -/
theorem hosts_recorded_stray :
    let server : Host := .ofIp (.v4 ⟨198, 51, 100, 1⟩) 3478
    let alternate : Host := .ofIp (.v4 ⟨198, 51, 100, 2⟩) 3479
    let other : Host := .ofIp (.v4 ⟨198, 51, 100, 3⟩) 3479
    let here : Host := .ofIp (.v4 ⟨203, 0, 113, 7⟩) 50000
    let there : Host := .ofIp (.v4 ⟨203, 0, 113, 8⟩) 50001
    let answered (source : Host) := thenSilence
      [.ok (some ⟨here, server, some alternate, none, false⟩), .ok none,
        .ok (some ⟨there, source, none, none, false⟩)]
    (found server (answered alternate)).natType = .symmetric ∧
    (found server (answered alternate)).hosts = [here, there] ∧
    (probes server (answered other))[2]? = some (alternate, .none) ∧
    Stray alternate .none other ∧
    found server (answered other) = .failed .addressMismatch [here] ∧
    (found server (answered other)).hosts.length ≤ 1 := by
  intro server alternate other here there answered
  have hsymmetric : (found server (answered alternate)).natType = .symmetric := by decide
  have hasked : (probes server (answered other))[2]? = some (alternate, .none) := by decide
  have hsource : Stray alternate .none other := by
    have hne : other ≠ alternate := by decide
    exact hne
  obtain ⟨-, -, -, -, htwo, -, -⟩ := hosts_recorded server (answered alternate)
  obtain ⟨first, third, hfirst, hthird, hhosts⟩ := htwo hsymmetric
  cases hfirst
  cases hthird
  obtain ⟨-, -, -, -, -, hone, hstray⟩ := hosts_recorded server (answered other)
  have hfound := hstray 2 alternate .none _ hasked rfl hsource
  refine ⟨hsymmetric, hhosts, hasked, hsource, hfound, hone ?_⟩
  rw [hfound]
  exact Option.some_ne_none _

end NatBehavior.Flowchart
