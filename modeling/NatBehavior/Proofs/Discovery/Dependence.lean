import Mathlib.Tactic.IntervalCases
import NatBehavior.Proofs.Discovery.Probes

/-! What a run may depend on. The first response fixes which questions are asked, the verdict fixes
how many, and of all that the responses hold the run looks at a small part: two runs whose outcomes
agree on that part, as far as they are used, are the same run. -/
namespace NatBehavior.Flowchart

open Inquiry

variable {server alternate : Host} {outcomes : Nat → ProbeOutcome} {first : Response}
  {dest : Host} {change : ChangeRequest} {hosts : List Host} {next : Option Response → Inquiry}

/-! ### The questions of a run -/

/-- The alternate address that an outcome tells, where it is a response that tells one. -/
def alternateOf : ProbeOutcome → Option Host
  | .ok (some r) => r.changed <|> r.other
  | _ => none

/-- All that may be asked, in order. -/
def questions (server : Host) (told : Option Host) : List (Host × ChangeRequest) :=
  (server, .none) :: (server, .ipAndPort) ::
    told.toList.flatMap fun alternate => [(alternate, .none), (alternate, .port)]

theorem Baseline.alternateOf_eq (base : Baseline server outcomes first alternate) :
    alternateOf (outcomes 0) = some alternate := by
  rw [base.answered]
  exact base.told

theorem probes_prefix (server : Host) (outcomes : Nat → ProbeOutcome) :
    probes server outcomes <+: questions server (alternateOf (outcomes 0)) := by
  by_cases h : ∃ first alternate, Filtered server outcomes first alternate
  · obtain ⟨first, alternate, filtered⟩ := h
    rw [filtered.toBaseline.alternateOf_eq]
    rcases probes_of_filtered filtered with hprobes | hprobes
    · rw [hprobes]
      exact ⟨[(alternate, .port)], rfl⟩
    · rw [hprobes]
      exact List.prefix_rfl
  · have hnone : ∀ first alternate, ¬ Filtered server outcomes first alternate :=
      fun first alternate filtered => h ⟨first, alternate, filtered⟩
    rcases probes_of_not_filtered hnone with hprobes | hprobes
    · rw [hprobes]
      exact ⟨_ :: _, rfl⟩
    · rw [hprobes]
      exact ⟨_, rfl⟩

theorem probes_ne_nil (server : Host) (outcomes : Nat → ProbeOutcome) :
    probes server outcomes ≠ [] := by
  rw [probes, classify, baseline, ask, replay]
  exact List.cons_ne_nil _ _

/-! ### The number of questions behind a verdict -/

/-- How many probes a verdict takes. A failure may come after any of them. -/
def probesTo : NatType → Option Nat
  | .error => none
  | .blocked => some 1
  | .openInternet | .full | .symmetricUdpFirewall => some 2
  | .symmetric | .unknown => some 3
  | .restricted | .portRestricted => some 4

/-- Whatever the outcomes are, an inquiry behind `asked` probes fails or reaches a verdict after as
many as the verdict takes. -/
def Timely (asked : Nat) (inquiry : Inquiry) : Prop :=
  ∀ outcomes, let run := inquiry.replay outcomes
    run.classification.natType = .error ∨
      probesTo run.classification.natType = some (asked + run.probes.length)

theorem timely_failed (asked : Nat) (e : DiscoveryError) :
    Timely asked (verdict (.failed e hosts)) := fun _ => .inl rfl

theorem timely_leaf {asked : Nat} {t : NatType} (h : probesTo t = some asked) :
    Timely asked (verdict (.leaf t hosts)) := fun _ => .inr h

theorem timely_ask {asked : Nat} (h : ∀ answer, Timely (asked + 1) (next answer)) :
    Timely asked (ask dest change hosts next) := by
  intro outcomes
  cases houtcome : outcomes 0 with
  | error e =>
    left
    rw [replay_ask_error houtcome]
    rfl
  | ok answer =>
    dsimp only
    rw [replay_ask_ok houtcome, probes_ask_ok houtcome, List.length_cons, Nat.add_comm _ 1,
      ← Nat.add_assoc]
    exact h answer fun i => outcomes (i + 1)

theorem timely_portFiltering : Timely 3 (portFiltering hosts alternate) := by
  refine timely_ask fun answer => ?_
  cases answer with
  | none => exact timely_leaf rfl
  | some r =>
    dsimp only
    split
    · exact timely_failed _ _
    · exact timely_leaf rfl

theorem timely_mappingStability {mapped : Host} :
    Timely 2 (mappingStability hosts mapped alternate) := by
  refine timely_ask fun answer => ?_
  cases answer with
  | none => exact timely_leaf rfl
  | some r =>
    dsimp only
    split
    · exact timely_failed _ _
    · split
      · exact timely_portFiltering
      · exact timely_leaf rfl

theorem timely_crossAddress {identical : Bool} {mapped : Host} :
    Timely 1 (crossAddress server hosts identical mapped alternate) := by
  refine timely_ask fun answer => ?_
  cases answer with
  | none =>
    dsimp only
    split
    · exact timely_leaf rfl
    · exact timely_mappingStability
  | some r =>
    dsimp only
    split
    · exact timely_failed _ _
    · cases identical <;> exact timely_leaf rfl

theorem timely_classify (server : Host) : Timely 0 (classify server) := by
  refine timely_ask fun answer => ?_
  cases answer with
  | none => exact timely_leaf rfl
  | some r =>
    dsimp only
    split
    · exact timely_failed _ _
    · split
      · exact timely_failed _ _
      · exact timely_crossAddress

theorem length_probes_of_probesTo {n : Nat}
    (h : probesTo (found server outcomes).natType = some n) :
    (probes server outcomes).length = n := by
  rw [found_eq_replay] at h
  rcases timely_classify server outcomes with herror | hcount
  · rw [herror] at h
    cases h
  · rw [hcount, Nat.zero_add] at h
    exact Option.some.inj h

/-! ### What a run looks at -/

/-- Outcomes that differ at most in what a view of responses leaves out. -/
def Alike {α : Type} (view : Response → α) (x y : ProbeOutcome) : Prop :=
  x.map (·.map view) = y.map (·.map view)

/-- The outcomes of one probe of a run, counted from zero, that make no difference to it: of the
first response it looks at all but how the alternate address was told, of the third at the
addresses, of the others only at where they came from. -/
def Indistinct : Nat → ProbeOutcome → ProbeOutcome → Prop
  | 0 => Alike fun r => (r.mapped, r.server, r.identical, r.changed <|> r.other)
  | 2 => Alike fun r => (r.mapped, r.server)
  | _ => Alike (·.server)

/-- Behind `asked` probes, two inquiries are the same on outcomes that are indistinct wherever the
first of them looks. -/
def Insensitive (asked : Nat) (x y : Inquiry) : Prop :=
  ∀ outcomes outcomes', (∀ i < (x.replay outcomes).probes.length,
    Indistinct (asked + i) (outcomes i) (outcomes' i)) → x.replay outcomes = y.replay outcomes'

theorem insensitive_verdict (asked : Nat) (c : Classification) :
    Insensitive asked (verdict c) (verdict c) := fun _ _ _ => rfl

theorem insensitive_ask {asked : Nat} {α : Type} (view : Response → α)
    (hview : ∀ x y, Indistinct asked x y → Alike view x y)
    (hnext : ∀ answer answer', answer.map view = answer'.map view →
      Insensitive (asked + 1) (next answer) (next answer')) :
    Insensitive asked (ask dest change hosts next) (ask dest change hosts next) := by
  intro outcomes outcomes' h
  have hpositive : 0 < ((ask dest change hosts next).replay outcomes).probes.length := by
    rw [ask, replay]
    exact Nat.succ_pos _
  have halike := hview _ _ (h 0 hpositive)
  unfold Alike at halike
  cases houtcome : outcomes 0 with
  | error e =>
    rw [houtcome] at halike
    cases houtcome' : outcomes' 0 with
    | error e' =>
      rw [houtcome'] at halike
      obtain rfl : e = e' := Except.error.inj halike
      simp only [ask, replay, houtcome, houtcome']
    | ok answer' =>
      rw [houtcome'] at halike
      cases halike
  | ok answer =>
    rw [houtcome] at halike
    cases houtcome' : outcomes' 0 with
    | error e' =>
      rw [houtcome'] at halike
      cases halike
    | ok answer' =>
      rw [houtcome'] at halike
      have hrest := hnext answer answer' (Except.ok.inj halike) (fun i => outcomes (i + 1))
        (fun i => outcomes' (i + 1)) ?_
      · simp only [ask, replay, houtcome, houtcome', hrest]
      · intro i hi
        have hlater := h (i + 1)
        rw [probes_ask_ok houtcome, List.length_cons, ← Nat.add_assoc,
          Nat.add_right_comm] at hlater
        exact hlater (Nat.succ_lt_succ hi)

theorem insensitive_portFiltering :
    Insensitive 3 (portFiltering hosts alternate) (portFiltering hosts alternate) := by
  refine insensitive_ask (·.server) (fun _ _ h => h) fun answer answer' h => ?_
  cases answer with
  | none =>
    obtain rfl : answer' = none := Option.map_eq_none_iff.mp h.symm
    exact insensitive_verdict _ _
  | some r =>
    obtain ⟨r', rfl, hserver⟩ := Option.map_eq_some_iff.mp h.symm
    dsimp only
    rw [hserver]
    split <;> exact insensitive_verdict _ _

theorem insensitive_mappingStability {mapped : Host} :
    Insensitive 2 (mappingStability hosts mapped alternate)
      (mappingStability hosts mapped alternate) := by
  refine insensitive_ask (fun r => (r.mapped, r.server)) (fun _ _ h => h)
    fun answer answer' h => ?_
  cases answer with
  | none =>
    obtain rfl : answer' = none := Option.map_eq_none_iff.mp h.symm
    exact insensitive_verdict _ _
  | some r =>
    obtain ⟨r', rfl, hseen⟩ := Option.map_eq_some_iff.mp h.symm
    obtain ⟨hmapped, hserver⟩ := Prod.mk.inj hseen
    dsimp only
    rw [hmapped, hserver]
    split
    · exact insensitive_verdict _ _
    · split
      · exact insensitive_portFiltering
      · exact insensitive_verdict _ _

theorem insensitive_crossAddress {identical : Bool} {mapped : Host} :
    Insensitive 1 (crossAddress server hosts identical mapped alternate)
      (crossAddress server hosts identical mapped alternate) := by
  refine insensitive_ask (·.server) (fun _ _ h => h) fun answer answer' h => ?_
  cases answer with
  | none =>
    obtain rfl : answer' = none := Option.map_eq_none_iff.mp h.symm
    dsimp only
    split
    · exact insensitive_verdict _ _
    · exact insensitive_mappingStability
  | some r =>
    obtain ⟨r', rfl, hserver⟩ := Option.map_eq_some_iff.mp h.symm
    dsimp only
    rw [hserver]
    split <;> exact insensitive_verdict _ _

theorem insensitive_classify (server : Host) :
    Insensitive 0 (classify server) (classify server) := by
  refine insensitive_ask (fun r => (r.mapped, r.server, r.identical, r.changed <|> r.other))
    (fun _ _ h => h) fun answer answer' h => ?_
  cases answer with
  | none =>
    obtain rfl : answer' = none := Option.map_eq_none_iff.mp h.symm
    exact insensitive_verdict _ _
  | some r =>
    obtain ⟨r', rfl, hseen⟩ := Option.map_eq_some_iff.mp h.symm
    simp only [Prod.mk.injEq] at hseen
    obtain ⟨hmapped, hserver, hidentical, halternate⟩ := hseen
    simp only [Response.alternate, hmapped, hserver, hidentical, halternate]
    split
    · exact insensitive_verdict _ _
    · split
      · exact insensitive_verdict _ _
      · exact insensitive_crossAddress

/-- The probes of a run are the first of four questions, as many as its verdict takes. Whatever
else the responses hold, and whatever would have come after the last of them that was used, the run
issues the same probes and finds the same. -/
theorem run_depends_on_seen (server : Host) (outcomes : Nat → ProbeOutcome) :
    probes server outcomes ≠ [] ∧
    probes server outcomes <+: questions server (alternateOf (outcomes 0)) ∧
    (probes server outcomes).length ≤ 4 ∧
    (∀ n, probesTo (found server outcomes).natType = some n →
      (probes server outcomes).length = n) ∧
    ∀ outcomes', (∀ i < (probes server outcomes).length,
      Indistinct i (outcomes i) (outcomes' i)) →
        probes server outcomes' = probes server outcomes ∧
          found server outcomes' = found server outcomes := by
  refine ⟨probes_ne_nil server outcomes, probes_prefix server outcomes,
    length_probes_le server outcomes, fun n => length_probes_of_probesTo, ?_⟩
  intro outcomes' h
  have hsame : (classify server).replay outcomes = (classify server).replay outcomes' :=
    insensitive_classify server outcomes outcomes' fun i hi => by
      rw [Nat.zero_add]
      exact h i hi
  constructor
  · rw [probes, probes, hsame]
  · rw [found_eq_replay, found_eq_replay, hsame]

/-- A server that tells its alternate address by the newer attribute, claims other addresses in its
later responses and would have failed a fourth probe: the mapping is found to be symmetric all the
same. -/
theorem run_depends_on_seen_symmetric :
    let server : Host := .ofIp (.v4 ⟨198, 51, 100, 1⟩) 3478
    let alternate : Host := .ofIp (.v4 ⟨198, 51, 100, 2⟩) 3479
    let here : Host := .ofIp (.v4 ⟨203, 0, 113, 7⟩) 50000
    let there : Host := .ofIp (.v4 ⟨203, 0, 113, 7⟩) 50001
    let outcomes := thenSilence [.ok (some ⟨here, server, some alternate, none, false⟩), .ok none,
      .ok (some ⟨there, alternate, none, none, false⟩)]
    let outcomes' := thenSilence [.ok (some ⟨here, server, none, some alternate, false⟩), .ok none,
      .ok (some ⟨there, alternate, some here, some server, true⟩),
      .error (.stun .invalidMessageType)]
    probesTo (found server outcomes).natType = some 3 ∧
    (∀ i < (probes server outcomes).length, Indistinct i (outcomes i) (outcomes' i)) ∧
    (probes server outcomes').length = 3 ∧
    found server outcomes' = .leaf .symmetric [here, there] := by
  intro server alternate here there outcomes outcomes'
  have hverdict : found server outcomes = .leaf .symmetric [here, there] := by decide
  have hcount : probesTo (found server outcomes).natType = some 3 := by
    rw [hverdict]
    rfl
  obtain ⟨-, -, -, hlength, hdepends⟩ := run_depends_on_seen server outcomes
  have hsame : ∀ i < (probes server outcomes).length,
      Indistinct i (outcomes i) (outcomes' i) := by
    rw [hlength 3 hcount]
    intro i hi
    interval_cases i <;> rfl
  obtain ⟨hprobes, hfound⟩ := hdepends outcomes' hsame
  exact ⟨hcount, hsame, by rw [hprobes, hlength 3 hcount], by rw [hfound, hverdict]⟩

end NatBehavior.Flowchart
