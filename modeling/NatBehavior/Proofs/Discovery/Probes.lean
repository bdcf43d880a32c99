import NatBehavior.Proofs.Discovery.Flowchart
import NatBehavior.Proofs.Probe.Exchange

/-! The probes that a run issues. Whatever the prober does, a run is the replay of the outcomes it
gave, so the probes are told by the outcomes too. A run asks the server twice and then the
alternate address twice, each time for another change; a probe is repeated only where the server
told itself as the alternate address. -/
namespace NatBehavior

theorem run_bind_of_run {σ α β : Type} {x : StateM σ α} {f : α → StateM σ β} {a : α} {s s' : σ}
    (h : x.run s = (a, s')) : (x >>= f).run s = (f a).run s' := by
  rw [StateT.run_bind, h]
  rfl

namespace Inquiry

variable {ε σ : Type}

/-- One probe of a run over a prober that has a state and may be stopped. -/
structure Step (ε σ : Type) where
  before : σ
  dest : Host
  change : ChangeRequest
  answer : Except ε ProbeOutcome
  after : σ

/-- What a step asks for. -/
def Step.question (step : Step ε σ) : Host × ChangeRequest := (step.dest, step.change)

/-- The probes of a run, in order. One that is stopped is the last. -/
def steps (ask : Host → ChangeRequest → Stoppable ε σ ProbeOutcome) :
    Inquiry → σ → List (Step ε σ)
  | verdict _, _ => []
  | probe dest change next, s =>
    let (answer, s') := ((ask dest change).run).run s
    ⟨s, dest, change, answer, s'⟩ ::
      match answer with
      | .ok outcome => (next outcome).steps ask s'
      | .error _ => []

variable {ask : Host → ChangeRequest → Stoppable ε σ ProbeOutcome}

section

variable {dest : Host} {change : ChangeRequest} {next : ProbeOutcome → Inquiry} {s s' : σ}

theorem steps_probe_of_ok {outcome : ProbeOutcome}
    (h : ((ask dest change).run).run s = (.ok outcome, s')) :
    (probe dest change next).steps ask s =
      ⟨s, dest, change, .ok outcome, s'⟩ :: (next outcome).steps ask s' := by
  rw [steps, h]

theorem steps_probe_of_error {e : ε} (h : ((ask dest change).run).run s = (.error e, s')) :
    (probe dest change next).steps ask s = [⟨s, dest, change, .error e, s'⟩] := by
  rw [steps, h]

theorem run_probe_of_ok {outcome : ProbeOutcome}
    (h : ((ask dest change).run).run s = (.ok outcome, s')) :
    (((probe dest change next).run ask).run).run s = (((next outcome).run ask).run).run s' :=
  run_bind_of_ok h

theorem run_probe_of_error {e : ε} (h : ((ask dest change).run).run s = (.error e, s')) :
    (((probe dest change next).run ask).run).run s = (.error e, s') :=
  run_bind_of_error h

end

/-- What every probe keeps holds in front of every step. -/
theorem of_mem_steps {P : σ → Prop}
    (hkeep : ∀ dest change s, P s → P (((ask dest change).run).run s).2) {inquiry : Inquiry} {s : σ}
    (hs : P s) {step : Step ε σ} (hstep : step ∈ inquiry.steps ask s) :
    P step.before ∧
      ((ask step.dest step.change).run).run step.before = (step.answer, step.after) := by
  induction inquiry generalizing s with
  | verdict c => cases hstep
  | probe dest change next ih =>
    rcases hrun : ((ask dest change).run).run s with ⟨e | outcome, s'⟩
    · rw [steps_probe_of_error hrun, List.mem_singleton] at hstep
      subst hstep
      exact ⟨hs, hrun⟩
    · rw [steps_probe_of_ok hrun, List.mem_cons] at hstep
      rcases hstep with rfl | hrest
      · exact ⟨hs, hrun⟩
      · have hnext : P (((ask dest change).run).run s).2 := hkeep dest change s hs
        rw [hrun] at hnext
        exact ih outcome hnext hrest

/-- A run over any prober is the replay of the outcomes it gave, unless it was stopped. -/
theorem run_eq_replay_steps (inquiry : Inquiry) (s : σ) :
    (((inquiry.run ask).run).run s).1 =
      ((inquiry.steps ask s).mapM Step.answer).map fun outcomes =>
        (inquiry.replay (thenSilence outcomes)).classification := by
  induction inquiry generalizing s with
  | verdict c => rfl
  | probe dest change next ih =>
    rcases hrun : ((ask dest change).run).run s with ⟨e | outcome, s'⟩
    · rw [run_probe_of_error hrun, steps_probe_of_error hrun]
      rfl
    · rw [run_probe_of_ok hrun, steps_probe_of_ok hrun, ih outcome s', List.mapM_cons]
      dsimp only
      cases ((next outcome).steps ask s').mapM Step.answer <;> rfl

/-- The probes of a run over any prober are those of the replay, up to where it was stopped. -/
theorem questions_steps_prefix (inquiry : Inquiry) (s : σ) :
    ∃ outcomes, (inquiry.steps ask s).map Step.question <+: (inquiry.replay outcomes).probes := by
  induction inquiry generalizing s with
  | verdict c => exact ⟨thenSilence [], List.nil_prefix⟩
  | probe dest change next ih =>
    rcases hrun : ((ask dest change).run).run s with ⟨e | outcome, s'⟩
    · rw [steps_probe_of_error hrun]
      refine ⟨thenSilence [], ?_⟩
      rw [replay, List.map_singleton]
      exact List.prefix_append [(dest, change)] _
    · obtain ⟨outcomes, hrest⟩ := ih outcome s'
      rw [steps_probe_of_ok hrun]
      exact ⟨fun i => if i = 0 then outcome else outcomes (i - 1),
        List.cons_prefix_cons.mpr ⟨rfl, hrest⟩⟩

end Inquiry

namespace Flowchart

open Inquiry

variable {server alternate : Host} {outcomes : Nat → ProbeOutcome} {first : Response}

/-- The probes of a run whose probes have the given outcomes. -/
def probes (server : Host) (outcomes : Nat → ProbeOutcome) : List (Host × ChangeRequest) :=
  ((classify server).replay outcomes).probes

section

variable {dest : Host} {change : ChangeRequest} {hosts : List Host}
  {next : Option Response → Inquiry}

theorem probes_ask_error {e : ProbeError} (h : outcomes 0 = .error e) :
    ((ask dest change hosts next).replay outcomes).probes = [(dest, change)] := by
  rw [ask, replay, h]
  rfl

theorem probes_ask_ok {answer : Option Response} (h : outcomes 0 = .ok answer) :
    ((ask dest change hosts next).replay outcomes).probes =
      (dest, change) :: ((next answer).replay fun i => outcomes (i + 1)).probes := by
  rw [ask, replay, h]

end

theorem probes_portFiltering (hosts : List Host) :
    ((portFiltering hosts alternate).replay outcomes).probes = [(alternate, .port)] := by
  unfold portFiltering
  cases h : outcomes 0 with
  | error e => exact probes_ask_error h
  | ok answer =>
    rw [probes_ask_ok h]
    cases answer with
    | none => rfl
    | some r =>
      dsimp only
      split <;> rfl

theorem probes_mappingStability (hosts : List Host) (mapped alternate : Host) :
    ((mappingStability hosts mapped alternate).replay outcomes).probes = [(alternate, .none)] ∨
    ((mappingStability hosts mapped alternate).replay outcomes).probes =
      [(alternate, .none), (alternate, .port)] := by
  unfold mappingStability
  cases h : outcomes 0 with
  | error e => exact .inl (probes_ask_error h)
  | ok answer =>
    rw [probes_ask_ok h]
    cases answer with
    | none => exact .inl rfl
    | some r =>
      dsimp only
      split
      · exact .inl rfl
      · split
        · exact .inr (congrArg _ (probes_portFiltering hosts))
        · exact .inl rfl

theorem probes_of_baseline (base : Baseline server outcomes first alternate) :
    probes server outcomes =
      (server, .none) ::
        ((crossAddress server [first.mapped] first.identical first.mapped alternate).replay
          fun i => outcomes (i + 1)).probes := by
  rw [probes, classify, baseline, probes_ask_ok base.answered]
  simp only [Response.alternate, base.source, base.told, ne_eq, not_true_eq_false, if_false]

/-- Behind a translation that filters, the alternate address is asked once or twice. -/
theorem probes_of_filtered (filtered : Filtered server outcomes first alternate) :
    probes server outcomes = [(server, .none), (server, .ipAndPort), (alternate, .none)] ∨
    probes server outcomes =
      [(server, .none), (server, .ipAndPort), (alternate, .none), (alternate, .port)] := by
  have hthird : probes server outcomes = (server, .none) :: (server, .ipAndPort) ::
      ((mappingStability [first.mapped] first.mapped alternate).replay
        fun i => outcomes (i + 2)).probes := by
    rw [probes_of_baseline filtered.toBaseline, crossAddress, probes_ask_ok filtered.silent]
    simp only [filtered.translated, Bool.false_eq_true, if_false]
  rw [hthird]
  rcases probes_mappingStability [first.mapped] first.mapped alternate with h | h
  · exact .inl (congrArg _ (congrArg _ h))
  · exact .inr (congrArg _ (congrArg _ h))

/-- Any other run asks the server only. -/
theorem probes_of_not_filtered (h : ∀ first alternate, ¬ Filtered server outcomes first alternate) :
    probes server outcomes = [(server, .none)] ∨
    probes server outcomes = [(server, .none), (server, .ipAndPort)] := by
  cases hfirst : outcomes 0 with
  | error e => exact .inl (probes_ask_error hfirst)
  | ok answer =>
    cases answer with
    | none => exact .inl (probes_ask_ok hfirst)
    | some first =>
      by_cases hsource : first.server = server
      · cases htold : first.changed <|> first.other with
        | none =>
          left
          rw [probes, classify, baseline, probes_ask_ok hfirst]
          simp only [Response.alternate, hsource, htold, ne_eq, not_true_eq_false, if_false]
          rfl
        | some alternate =>
          have base : Baseline server outcomes first alternate := ⟨hfirst, hsource, htold⟩
          right
          rw [probes_of_baseline base, crossAddress]
          cases hsecond : outcomes 1 with
          | error e => rw [probes_ask_error hsecond]
          | ok answer =>
            rw [probes_ask_ok hsecond]
            cases answer with
            | some second =>
              dsimp only
              split <;> rfl
            | none =>
              cases htranslated : first.identical with
              | true => rfl
              | false => exact absurd ⟨base, htranslated, hsecond⟩ (h first alternate)
      · left
        rw [probes, classify, baseline, probes_ask_ok hfirst]
        simp only [hsource, ne_eq, not_false_eq_true, if_true]
        rfl

/-- A run issues four probes at the most. -/
theorem length_probes_le (server : Host) (outcomes : Nat → ProbeOutcome) :
    (probes server outcomes).length ≤ 4 := by
  by_cases h : ∃ first alternate, Filtered server outcomes first alternate
  · obtain ⟨first, alternate, filtered⟩ := h
    rcases probes_of_filtered filtered with hprobes | hprobes
    · simp [hprobes]
    · simp [hprobes]
  · have hnone : ∀ first alternate, ¬ Filtered server outcomes first alternate :=
      fun first alternate filtered => h ⟨first, alternate, filtered⟩
    rcases probes_of_not_filtered hnone with hprobes | hprobes
    · simp [hprobes]
    · simp [hprobes]

theorem Baseline.alternate_eq {first' : Response} {alternate' : Host}
    (base : Baseline server outcomes first alternate)
    (base' : Baseline server outcomes first' alternate') : alternate = alternate' := by
  have hfirst : first = first' :=
    Option.some.inj (Except.ok.inj (base.answered.symm.trans base'.answered))
  have htold := base'.told
  rw [← hfirst, base.told] at htold
  exact Option.some.inj htold

/-- The alternate address is asked for the first time, unless it is the server itself. -/
theorem Filtered.nodup_probes_iff (filtered : Filtered server outcomes first alternate) :
    (probes server outcomes).Nodup ↔ alternate ≠ server := by
  rcases probes_of_filtered filtered with hprobes | hprobes
  · rw [hprobes]
    simp [eq_comm]
  · rw [hprobes]
    simp [eq_comm]

theorem nodup_probes_of_not_filtered
    (h : ∀ first alternate, ¬ Filtered server outcomes first alternate) :
    (probes server outcomes).Nodup := by
  rcases probes_of_not_filtered h with hprobes | hprobes
  · rw [hprobes]
    simp
  · rw [hprobes]
    simp

theorem nodup_probes_iff :
    (probes server outcomes).Nodup ↔ ∀ first, ¬ Filtered server outcomes first server := by
  by_cases h : ∃ first alternate, Filtered server outcomes first alternate
  · obtain ⟨first, alternate, filtered⟩ := h
    rw [filtered.nodup_probes_iff]
    constructor
    · intro hne first' filtered'
      exact hne (filtered.toBaseline.alternate_eq filtered'.toBaseline)
    · rintro hnone rfl
      exact hnone first filtered
  · have hnone : ∀ first alternate, ¬ Filtered server outcomes first alternate :=
      fun first alternate filtered => h ⟨first, alternate, filtered⟩
    exact iff_of_true (nodup_probes_of_not_filtered hnone) fun first => hnone first server

/-- The verdicts that rest on the mappings which two addresses saw. -/
theorem exists_mappings_of_compared {t : NatType}
    (ht : t ∈ [.symmetric, .restricted, .portRestricted])
    (h : (found server outcomes).natType = t) :
    ∃ first third alternate, Filtered server outcomes first alternate ∧
      outcomes 2 = .ok (some third) ∧ third.server = alternate := by
  have hreaches := natType_found_eq_iff.mp h
  simp only [List.mem_cons, List.not_mem_nil, or_false] at ht
  rcases ht with rfl | rfl | rfl
  · obtain ⟨first, alternate, third, filtered, hthird, hsource, -⟩ := hreaches
    exact ⟨first, third, alternate, filtered, hthird, hsource⟩
  · obtain ⟨first, alternate, -, stable, -⟩ := hreaches
    obtain ⟨third, hthird, hsource, -⟩ := stable.same
    exact ⟨first, third, alternate, stable.toFiltered, hthird, hsource⟩
  · obtain ⟨first, alternate, stable, -⟩ := hreaches
    obtain ⟨third, hthird, hsource, -⟩ := stable.same
    exact ⟨first, third, alternate, stable.toFiltered, hthird, hsource⟩

/-- A run repeats a probe exactly where it goes on to an alternate address that is the server
itself. A verdict on the mapping then compares what one address saw twice, and only then. -/
theorem probes_distinct_iff (server : Host) (outcomes : Nat → ProbeOutcome) :
    ((probes server outcomes).Nodup ↔ ∀ first, ¬ Filtered server outcomes first server) ∧
    ∀ t ∈ [NatType.symmetric, .restricted, .portRestricted],
      (found server outcomes).natType = t →
        ∃ first third, outcomes 0 = .ok (some first) ∧ outcomes 2 = .ok (some third) ∧
          first.server = server ∧ (first.changed <|> first.other) = some third.server ∧
          ((probes server outcomes).Nodup ↔ third.server ≠ first.server) := by
  refine ⟨nodup_probes_iff, ?_⟩
  intro t ht hverdict
  obtain ⟨first, third, alternate, filtered, hthird, hsource⟩ :=
    exists_mappings_of_compared ht hverdict
  refine ⟨first, third, filtered.answered, hthird, filtered.source, ?_, ?_⟩
  · rw [hsource, filtered.told]
  · rw [hsource, filtered.source]
    exact filtered.nodup_probes_iff

/-- A cone found through two addresses. -/
theorem probes_distinct_iff_cone :
    let server : Host := .ofIp (.v4 ⟨198, 51, 100, 1⟩) 3478
    let alternate : Host := .ofIp (.v4 ⟨198, 51, 100, 2⟩) 3479
    let mapped : Host := .ofIp (.v4 ⟨203, 0, 113, 7⟩) 50000
    let outcomes := thenSilence [.ok (some ⟨mapped, server, some alternate, none, false⟩), .ok none,
      .ok (some ⟨mapped, alternate, none, none, false⟩)]
    NatType.portRestricted ∈ [NatType.symmetric, .restricted, .portRestricted] ∧
    (found server outcomes).natType = .portRestricted ∧ (probes server outcomes).Nodup := by
  intro server alternate mapped outcomes
  have hmem : NatType.portRestricted ∈ [NatType.symmetric, .restricted, .portRestricted] := by
    decide
  have hverdict : (found server outcomes).natType = .portRestricted := by decide
  obtain ⟨first, third, hfirst, hthird, -, -, hnodup⟩ :=
    (probes_distinct_iff server outcomes).2 _ hmem hverdict
  obtain rfl := Option.some.inj (Except.ok.inj hfirst)
  obtain rfl := Option.some.inj (Except.ok.inj hthird)
  exact ⟨hmem, hverdict, hnodup.mpr (by decide)⟩

/-- A server that tells itself as the alternate address is asked for the same mapping twice, and
what it says twice is taken for that of a cone. -/
theorem probes_repeated_of_told_itself :
    let server : Host := .ofIp (.v4 ⟨198, 51, 100, 1⟩) 3478
    let mapped : Host := .ofIp (.v4 ⟨203, 0, 113, 7⟩) 50000
    let response : Response := ⟨mapped, server, some server, none, false⟩
    let outcomes := thenSilence [.ok (some response), .ok none, .ok (some response)]
    ¬ (probes server outcomes).Nodup ∧ (found server outcomes).natType = .portRestricted := by
  decide

end Flowchart

end NatBehavior
