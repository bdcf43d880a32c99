import NatBehavior.Discovery.Flowchart

/-! The flowchart as a relation between outcomes and classifications, with one case for each way
a run can end. A run takes exactly one of these ways, so every verdict and every failure is told
by the outcomes alone. -/
namespace NatBehavior.Flowchart

open Inquiry

variable {server alternate : Host} {outcomes : Nat → ProbeOutcome} {first : Response}

/-! ### Running and replaying -/

/-- Answers each probe with the next outcome of a list, and keeps the probes. -/
def scripted (dest : Host) (change : ChangeRequest) :
    StateM ((Nat → ProbeOutcome) × List (Host × ChangeRequest)) ProbeOutcome := do
  let (outcomes, probes) ← get
  set (fun i => outcomes (i + 1), probes ++ [(dest, change)])
  return outcomes 0

/-- Replaying is running against a prober that answers by the list. -/
theorem run_scripted (inquiry : Inquiry) (outcomes : Nat → ProbeOutcome)
    (probes : List (Host × ChangeRequest)) :
    ∃ later, (inquiry.run scripted).run (outcomes, probes) =
      ((inquiry.replay outcomes).classification,
        (later, probes ++ (inquiry.replay outcomes).probes)) := by
  induction inquiry generalizing outcomes probes with
  | verdict c =>
    refine ⟨outcomes, ?_⟩
    rw [replay, List.append_nil]
    rfl
  | probe dest change next ih =>
    obtain ⟨later, hrest⟩ :=
      ih (outcomes 0) (fun i => outcomes (i + 1)) (probes ++ [(dest, change)])
    refine ⟨later, ?_⟩
    rw [List.append_assoc] at hrest
    exact hrest

/-! ### The ways through the flowchart -/

/-- Test I was answered by the server itself, which told an alternate address: the changed address,
else the other one. -/
structure Baseline (server : Host) (outcomes : Nat → ProbeOutcome) (first : Response)
    (alternate : Host) : Prop where
  answered : outcomes 0 = .ok (some first)
  source : first.server = server
  told : (first.changed <|> first.other) = some alternate

/-- Behind a translation, test II stayed without an answer. -/
structure Filtered (server : Host) (outcomes : Nat → ProbeOutcome) (first : Response)
    (alternate : Host) : Prop extends Baseline server outcomes first alternate where
  translated : first.identical = false
  silent : outcomes 1 = .ok none

/-- The alternate address saw the same mapping. -/
structure Stable (server : Host) (outcomes : Nat → ProbeOutcome) (first : Response)
    (alternate : Host) : Prop extends Filtered server outcomes first alternate where
  same : ∃ third, outcomes 2 = .ok (some third) ∧ third.server = alternate ∧
    third.mapped = first.mapped

/-- The ways a run can end. -/
inductive Course (server : Host) (outcomes : Nat → ProbeOutcome) : Classification → Prop
  | failedFirst {e : ProbeError} (h : outcomes 0 = .error e) :
    Course server outcomes (.failed (.transport e) [])
  | blocked (h : outcomes 0 = .ok none) : Course server outcomes (.leaf .blocked [])
  | strayFirst {first : Response} (h : outcomes 0 = .ok (some first))
      (hsource : first.server ≠ server) :
    Course server outcomes (.failed .addressMismatch [first.mapped])
  | noOtherAddress {first : Response} (h : outcomes 0 = .ok (some first))
      (hsource : first.server = server) (htold : (first.changed <|> first.other) = none) :
    Course server outcomes (.failed .noOtherAddress [first.mapped])
  | failedSecond {first : Response} {alternate : Host} {e : ProbeError}
      (base : Baseline server outcomes first alternate) (h : outcomes 1 = .error e) :
    Course server outcomes (.failed (.transport e) [first.mapped])
  | straySecond {first second : Response} {alternate : Host}
      (base : Baseline server outcomes first alternate) (h : outcomes 1 = .ok (some second))
      (hsource : second.server.ip = server.ip ∨ second.server.port = server.port) :
    Course server outcomes (.failed .addressMismatch [first.mapped])
  | openInternet {first second : Response} {alternate : Host}
      (base : Baseline server outcomes first alternate) (hsame : first.identical = true)
      (h : outcomes 1 = .ok (some second)) (hip : second.server.ip ≠ server.ip)
      (hport : second.server.port ≠ server.port) :
    Course server outcomes (.leaf .openInternet [first.mapped])
  | symmetricUdpFirewall {first : Response} {alternate : Host}
      (base : Baseline server outcomes first alternate) (hsame : first.identical = true)
      (h : outcomes 1 = .ok none) :
    Course server outcomes (.leaf .symmetricUdpFirewall [first.mapped])
  | full {first second : Response} {alternate : Host}
      (base : Baseline server outcomes first alternate) (htranslated : first.identical = false)
      (h : outcomes 1 = .ok (some second)) (hip : second.server.ip ≠ server.ip)
      (hport : second.server.port ≠ server.port) :
    Course server outcomes (.leaf .full [first.mapped])
  | failedThird {first : Response} {alternate : Host} {e : ProbeError}
      (filtered : Filtered server outcomes first alternate) (h : outcomes 2 = .error e) :
    Course server outcomes (.failed (.transport e) [first.mapped])
  | unknown {first : Response} {alternate : Host}
      (filtered : Filtered server outcomes first alternate) (h : outcomes 2 = .ok none) :
    Course server outcomes (.leaf .unknown [first.mapped])
  | strayThird {first third : Response} {alternate : Host}
      (filtered : Filtered server outcomes first alternate) (h : outcomes 2 = .ok (some third))
      (hsource : third.server ≠ alternate) :
    Course server outcomes (.failed .addressMismatch [first.mapped])
  | symmetric {first third : Response} {alternate : Host}
      (filtered : Filtered server outcomes first alternate) (h : outcomes 2 = .ok (some third))
      (hsource : third.server = alternate) (hmapped : third.mapped ≠ first.mapped) :
    Course server outcomes (.leaf .symmetric [first.mapped, third.mapped])
  | failedFourth {first : Response} {alternate : Host} {e : ProbeError}
      (stable : Stable server outcomes first alternate) (h : outcomes 3 = .error e) :
    Course server outcomes (.failed (.transport e) [first.mapped])
  | portRestricted {first : Response} {alternate : Host}
      (stable : Stable server outcomes first alternate) (h : outcomes 3 = .ok none) :
    Course server outcomes (.leaf .portRestricted [first.mapped])
  | strayFourth {first fourth : Response} {alternate : Host}
      (stable : Stable server outcomes first alternate) (h : outcomes 3 = .ok (some fourth))
      (hsource : fourth.server.ip ≠ alternate.ip ∨ fourth.server.port = alternate.port) :
    Course server outcomes (.failed .addressMismatch [first.mapped])
  | restricted {first fourth : Response} {alternate : Host}
      (stable : Stable server outcomes first alternate) (h : outcomes 3 = .ok (some fourth))
      (hip : fourth.server.ip = alternate.ip) (hport : fourth.server.port ≠ alternate.port) :
    Course server outcomes (.leaf .restricted [first.mapped])

/-! ### Each run takes one way -/

/-- What a run finds whose probes have the given outcomes. -/
def found (server : Host) (outcomes : Nat → ProbeOutcome) : Classification :=
  (((classify server).run scripted).run (outcomes, [])).1

theorem found_eq_replay (server : Host) (outcomes : Nat → ProbeOutcome) :
    found server outcomes = ((classify server).replay outcomes).classification := by
  obtain ⟨later, hrun⟩ := run_scripted (classify server) outcomes []
  rw [found, hrun]

theorem replay_ask_error {dest : Host} {change : ChangeRequest} {hosts : List Host}
    {next : Option Response → Inquiry} {e : ProbeError} (h : outcomes 0 = .error e) :
    ((ask dest change hosts next).replay outcomes).classification =
      .failed (.transport e) hosts := by
  rw [ask, replay, h]
  rfl

theorem replay_ask_ok {dest : Host} {change : ChangeRequest} {hosts : List Host}
    {next : Option Response → Inquiry} {answer : Option Response} (h : outcomes 0 = .ok answer) :
    ((ask dest change hosts next).replay outcomes).classification =
      ((next answer).replay fun i => outcomes (i + 1)).classification := by
  rw [ask, replay, h]

/-- After a sound baseline, the run goes on with test II. -/
theorem found_of_baseline (base : Baseline server outcomes first alternate) :
    found server outcomes =
      ((crossAddress server [first.mapped] first.identical first.mapped alternate).replay
        fun i => outcomes (i + 1)).classification := by
  rw [found_eq_replay, classify, baseline, replay_ask_ok base.answered]
  simp only [Response.alternate, base.source, base.told, ne_eq, not_true_eq_false, if_false]

theorem found_of_filtered (filtered : Filtered server outcomes first alternate) :
    found server outcomes =
      ((mappingStability [first.mapped] first.mapped alternate).replay
        fun i => outcomes (i + 2)).classification := by
  rw [found_of_baseline filtered.toBaseline, crossAddress, replay_ask_ok filtered.silent]
  simp only [filtered.translated, Bool.false_eq_true, if_false]

theorem found_of_stable (stable : Stable server outcomes first alternate) :
    found server outcomes =
      ((portFiltering [first.mapped] alternate).replay
        fun i => outcomes (i + 3)).classification := by
  obtain ⟨third, hanswer, hsource, hmapped⟩ := stable.same
  rw [found_of_filtered stable.toFiltered, mappingStability, replay_ask_ok hanswer]
  simp only [hsource, hmapped, ne_eq, not_true_eq_false, if_false, if_true]

/-- A way through the flowchart is what the run finds. -/
theorem Course.eq_found {c : Classification} (h : Course server outcomes c) :
    found server outcomes = c := by
  cases h with
  | failedFirst h =>
    rw [found_eq_replay]
    exact replay_ask_error h
  | blocked h =>
    rw [found_eq_replay]
    exact replay_ask_ok h
  | strayFirst h hsource =>
    rw [found_eq_replay, classify, baseline, replay_ask_ok h]
    simp only [hsource, ne_eq, not_false_eq_true, if_true]
    rfl
  | noOtherAddress h hsource htold =>
    rw [found_eq_replay, classify, baseline, replay_ask_ok h]
    simp only [Response.alternate, hsource, htold, ne_eq, not_true_eq_false, if_false]
    rfl
  | failedSecond base h =>
    rw [found_of_baseline base]
    exact replay_ask_error h
  | straySecond base h hsource =>
    rw [found_of_baseline base, crossAddress, replay_ask_ok h]
    simp only [hsource, if_true]
    rfl
  | openInternet base hsame h hip hport =>
    rw [found_of_baseline base, crossAddress, replay_ask_ok h]
    simp only [hip, hport, hsame, or_self, if_false, if_true]
    rfl
  | symmetricUdpFirewall base hsame h =>
    rw [found_of_baseline base, crossAddress, replay_ask_ok h]
    simp only [hsame, if_true]
    rfl
  | full base htranslated h hip hport =>
    rw [found_of_baseline base, crossAddress, replay_ask_ok h]
    simp only [hip, hport, htranslated, or_self, Bool.false_eq_true, if_false]
    rfl
  | failedThird filtered h =>
    rw [found_of_filtered filtered]
    exact replay_ask_error h
  | unknown filtered h =>
    rw [found_of_filtered filtered, mappingStability, replay_ask_ok h]
    rfl
  | strayThird filtered h hsource =>
    rw [found_of_filtered filtered, mappingStability, replay_ask_ok h]
    simp only [hsource, ne_eq, not_false_eq_true, if_true]
    rfl
  | symmetric filtered h hsource hmapped =>
    rw [found_of_filtered filtered, mappingStability, replay_ask_ok h]
    simp only [hsource, hmapped, ne_eq, not_true_eq_false, if_false]
    rfl
  | failedFourth stable h =>
    rw [found_of_stable stable]
    exact replay_ask_error h
  | portRestricted stable h =>
    rw [found_of_stable stable, portFiltering, replay_ask_ok h]
    rfl
  | strayFourth stable h hsource =>
    rw [found_of_stable stable, portFiltering, replay_ask_ok h]
    simp only [hsource, ne_eq, if_true]
    rfl
  | restricted stable h hip hport =>
    rw [found_of_stable stable, portFiltering, replay_ask_ok h]
    simp only [hip, hport, ne_eq, not_true_eq_false, or_self, if_false]
    rfl

theorem exists_course_of_stable (stable : Stable server outcomes first alternate) :
    ∃ c, Course server outcomes c := by
  cases h : outcomes 3 with
  | error e => exact ⟨_, .failedFourth stable h⟩
  | ok answer =>
    cases answer with
    | none => exact ⟨_, .portRestricted stable h⟩
    | some fourth =>
      by_cases hip : fourth.server.ip = alternate.ip
      · by_cases hport : fourth.server.port = alternate.port
        · exact ⟨_, .strayFourth stable h (.inr hport)⟩
        · exact ⟨_, .restricted stable h hip hport⟩
      · exact ⟨_, .strayFourth stable h (.inl hip)⟩

theorem exists_course_of_filtered (filtered : Filtered server outcomes first alternate) :
    ∃ c, Course server outcomes c := by
  cases h : outcomes 2 with
  | error e => exact ⟨_, .failedThird filtered h⟩
  | ok answer =>
    cases answer with
    | none => exact ⟨_, .unknown filtered h⟩
    | some third =>
      by_cases hsource : third.server = alternate
      · by_cases hmapped : third.mapped = first.mapped
        · exact exists_course_of_stable ⟨filtered, third, h, hsource, hmapped⟩
        · exact ⟨_, .symmetric filtered h hsource hmapped⟩
      · exact ⟨_, .strayThird filtered h hsource⟩

theorem exists_course_of_baseline (base : Baseline server outcomes first alternate) :
    ∃ c, Course server outcomes c := by
  cases h : outcomes 1 with
  | error e => exact ⟨_, .failedSecond base h⟩
  | ok answer =>
    cases answer with
    | none =>
      cases hsame : first.identical with
      | true => exact ⟨_, .symmetricUdpFirewall base hsame h⟩
      | false => exact exists_course_of_filtered ⟨base, hsame, h⟩
    | some second =>
      by_cases hsource : second.server.ip = server.ip ∨ second.server.port = server.port
      · exact ⟨_, .straySecond base h hsource⟩
      · obtain ⟨hip, hport⟩ := not_or.mp hsource
        cases hsame : first.identical with
        | true => exact ⟨_, .openInternet base hsame h hip hport⟩
        | false => exact ⟨_, .full base hsame h hip hport⟩

theorem exists_course (server : Host) (outcomes : Nat → ProbeOutcome) :
    ∃ c, Course server outcomes c := by
  cases h : outcomes 0 with
  | error e => exact ⟨_, .failedFirst h⟩
  | ok answer =>
    cases answer with
    | none => exact ⟨_, .blocked h⟩
    | some first =>
      by_cases hsource : first.server = server
      · cases htold : first.changed <|> first.other with
        | none => exact ⟨_, .noOtherAddress h hsource htold⟩
        | some alternate => exact exists_course_of_baseline ⟨h, hsource, htold⟩
      · exact ⟨_, .strayFirst h hsource⟩

/-- The run finds the one classification that a way through the flowchart leads to. -/
theorem found_eq_iff {c : Classification} :
    found server outcomes = c ↔ Course server outcomes c := by
  constructor
  · intro h
    obtain ⟨c', hcourse⟩ := exists_course server outcomes
    rw [← h, hcourse.eq_found]
    exact hcourse
  · exact Course.eq_found

theorem course_found (server : Host) (outcomes : Nat → ProbeOutcome) :
    Course server outcomes (found server outcomes) := found_eq_iff.mp rfl

/-! ### Verdicts and failures -/

theorem changed_orElse_other_eq_none_iff {r : Response} :
    (r.changed <|> r.other) = none ↔ r.changed = none ∧ r.other = none := by
  cases r.changed <;> simp

/-- When a run fails, told by the outcomes. -/
def Fails (server : Host) (outcomes : Nat → ProbeOutcome) : DiscoveryError → Prop
  | .transport e =>
    outcomes 0 = .error e ∨
    (∃ first alternate, Baseline server outcomes first alternate ∧ outcomes 1 = .error e) ∨
    (∃ first alternate, Filtered server outcomes first alternate ∧ outcomes 2 = .error e) ∨
    ∃ first alternate, Stable server outcomes first alternate ∧ outcomes 3 = .error e
  | .noOtherAddress => ∃ first, outcomes 0 = .ok (some first) ∧ first.server = server ∧
      first.changed = none ∧ first.other = none
  | .addressMismatch =>
    (∃ first, outcomes 0 = .ok (some first) ∧ first.server ≠ server) ∨
    (∃ first alternate second, Baseline server outcomes first alternate ∧
      outcomes 1 = .ok (some second) ∧
      (second.server.ip = server.ip ∨ second.server.port = server.port)) ∨
    (∃ first alternate third, Filtered server outcomes first alternate ∧
      outcomes 2 = .ok (some third) ∧ third.server ≠ alternate) ∨
    ∃ first alternate fourth, Stable server outcomes first alternate ∧
      outcomes 3 = .ok (some fourth) ∧
      (fourth.server.ip ≠ alternate.ip ∨ fourth.server.port = alternate.port)
  | .resolve .. | .io _ => False

/-- When a run reaches a verdict, told by the outcomes. -/
def Reaches (server : Host) (outcomes : Nat → ProbeOutcome) : NatType → Prop
  | .error => ∃ e, Fails server outcomes e
  | .blocked => outcomes 0 = .ok none
  | .openInternet => ∃ first alternate second, Baseline server outcomes first alternate ∧
      first.identical = true ∧ outcomes 1 = .ok (some second) ∧
      second.server.ip ≠ server.ip ∧ second.server.port ≠ server.port
  | .symmetricUdpFirewall => ∃ first alternate, Baseline server outcomes first alternate ∧
      first.identical = true ∧ outcomes 1 = .ok none
  | .full => ∃ first alternate second, Baseline server outcomes first alternate ∧
      first.identical = false ∧ outcomes 1 = .ok (some second) ∧
      second.server.ip ≠ server.ip ∧ second.server.port ≠ server.port
  | .unknown => ∃ first alternate, Filtered server outcomes first alternate ∧
      outcomes 2 = .ok none
  | .symmetric => ∃ first alternate third, Filtered server outcomes first alternate ∧
      outcomes 2 = .ok (some third) ∧ third.server = alternate ∧ third.mapped ≠ first.mapped
  | .portRestricted => ∃ first alternate, Stable server outcomes first alternate ∧
      outcomes 3 = .ok none
  | .restricted => ∃ first alternate fourth, Stable server outcomes first alternate ∧
      outcomes 3 = .ok (some fourth) ∧ fourth.server.ip = alternate.ip ∧
      fourth.server.port ≠ alternate.port

theorem Course.fails {c : Classification} (h : Course server outcomes c) {e : DiscoveryError}
    (he : c.error = some e) : Fails server outcomes e := by
  cases h with
  | failedFirst h =>
    cases he
    exact .inl h
  | strayFirst h hsource =>
    cases he
    exact .inl ⟨_, h, hsource⟩
  | noOtherAddress h hsource htold =>
    cases he
    exact ⟨_, h, hsource, changed_orElse_other_eq_none_iff.mp htold⟩
  | failedSecond base h =>
    cases he
    exact .inr (.inl ⟨_, _, base, h⟩)
  | straySecond base h hsource =>
    cases he
    exact .inr (.inl ⟨_, _, _, base, h, hsource⟩)
  | failedThird filtered h =>
    cases he
    exact .inr (.inr (.inl ⟨_, _, filtered, h⟩))
  | strayThird filtered h hsource =>
    cases he
    exact .inr (.inr (.inl ⟨_, _, _, filtered, h, hsource⟩))
  | failedFourth stable h =>
    cases he
    exact .inr (.inr (.inr ⟨_, _, stable, h⟩))
  | strayFourth stable h hsource =>
    cases he
    exact .inr (.inr (.inr ⟨_, _, _, stable, h, hsource⟩))
  | _ => cases he

theorem Fails.exists_course {e : DiscoveryError} (h : Fails server outcomes e) :
    ∃ hosts, Course server outcomes (.failed e hosts) := by
  cases e with
  | transport e =>
    rcases h with h | ⟨_, _, base, h⟩ | ⟨_, _, filtered, h⟩ | ⟨_, _, stable, h⟩
    · exact ⟨_, .failedFirst h⟩
    · exact ⟨_, .failedSecond base h⟩
    · exact ⟨_, .failedThird filtered h⟩
    · exact ⟨_, .failedFourth stable h⟩
  | noOtherAddress =>
    obtain ⟨first, h, hsource, htold⟩ := h
    exact ⟨_, .noOtherAddress h hsource (changed_orElse_other_eq_none_iff.mpr htold)⟩
  | addressMismatch =>
    rcases h with ⟨_, h, hsource⟩ | ⟨_, _, _, base, h, hsource⟩ | ⟨_, _, _, filtered, h, hsource⟩ |
      ⟨_, _, _, stable, h, hsource⟩
    · exact ⟨_, .strayFirst h hsource⟩
    · exact ⟨_, .straySecond base h hsource⟩
    · exact ⟨_, .strayThird filtered h hsource⟩
    · exact ⟨_, .strayFourth stable h hsource⟩
  | resolve | io => cases h

theorem Course.reaches {c : Classification} (h : Course server outcomes c) :
    Reaches server outcomes c.natType := by
  have hfails := fun e => h.fails (e := e)
  cases h with
  | blocked h => exact h
  | openInternet base hsame h hip hport => exact ⟨_, _, _, base, hsame, h, hip, hport⟩
  | symmetricUdpFirewall base hsame h => exact ⟨_, _, base, hsame, h⟩
  | full base htranslated h hip hport => exact ⟨_, _, _, base, htranslated, h, hip, hport⟩
  | unknown filtered h => exact ⟨_, _, filtered, h⟩
  | symmetric filtered h hsource hmapped => exact ⟨_, _, _, filtered, h, hsource, hmapped⟩
  | portRestricted stable h => exact ⟨_, _, stable, h⟩
  | restricted stable h hip hport => exact ⟨_, _, _, stable, h, hip, hport⟩
  | _ => exact ⟨_, hfails _ rfl⟩

theorem Reaches.exists_course {t : NatType} (h : Reaches server outcomes t) :
    ∃ c, Course server outcomes c ∧ c.natType = t := by
  cases t with
  | error =>
    obtain ⟨e, h⟩ := h
    obtain ⟨hosts, hcourse⟩ := h.exists_course
    exact ⟨_, hcourse, rfl⟩
  | blocked => exact ⟨_, .blocked h, rfl⟩
  | openInternet =>
    obtain ⟨_, _, _, base, hsame, h, hip, hport⟩ := h
    exact ⟨_, .openInternet base hsame h hip hport, rfl⟩
  | symmetricUdpFirewall =>
    obtain ⟨_, _, base, hsame, h⟩ := h
    exact ⟨_, .symmetricUdpFirewall base hsame h, rfl⟩
  | full =>
    obtain ⟨_, _, _, base, htranslated, h, hip, hport⟩ := h
    exact ⟨_, .full base htranslated h hip hport, rfl⟩
  | unknown =>
    obtain ⟨_, _, filtered, h⟩ := h
    exact ⟨_, .unknown filtered h, rfl⟩
  | symmetric =>
    obtain ⟨_, _, _, filtered, h, hsource, hmapped⟩ := h
    exact ⟨_, .symmetric filtered h hsource hmapped, rfl⟩
  | portRestricted =>
    obtain ⟨_, _, stable, h⟩ := h
    exact ⟨_, .portRestricted stable h, rfl⟩
  | restricted =>
    obtain ⟨_, _, _, stable, h, hip, hport⟩ := h
    exact ⟨_, .restricted stable h hip hport, rfl⟩

theorem natType_found_eq_iff {t : NatType} :
    (found server outcomes).natType = t ↔ Reaches server outcomes t := by
  constructor
  · rintro rfl
    exact (course_found server outcomes).reaches
  · intro h
    obtain ⟨c, hcourse, rfl⟩ := h.exists_course
    rw [hcourse.eq_found]

theorem error_found_eq_some_iff {e : DiscoveryError} :
    (found server outcomes).error = some e ↔ Fails server outcomes e := by
  constructor
  · exact (course_found server outcomes).fails
  · intro h
    obtain ⟨hosts, hcourse⟩ := h.exists_course
    rw [hcourse.eq_found]
    rfl

theorem error_found_eq_none_iff :
    (found server outcomes).error = none ↔ (found server outcomes).natType ≠ .error := by
  rw [ne_eq, natType_found_eq_iff, Option.eq_none_iff_forall_ne_some]
  simp only [ne_eq, error_found_eq_some_iff, Reaches, not_exists]

/-- The outcomes of the probes tell the verdict and the failure of every run. A run that reaches
no verdict fails, with an address mismatch where no probe failed and an alternate address was
told. -/
theorem classify_refines_flowchart (server : Host) (outcomes : Nat → ProbeOutcome) :
    (∀ t, (found server outcomes).natType = t ↔ Reaches server outcomes t) ∧
    (∀ e, (found server outcomes).error = some e ↔ Fails server outcomes e) ∧
    ((found server outcomes).natType = .error ↔
      ∀ t, t ≠ .error → ¬ Reaches server outcomes t) ∧
    ((found server outcomes).error = some .addressMismatch ↔
      (found server outcomes).natType = .error ∧
        (∀ e, ¬ Fails server outcomes (.transport e)) ∧
          ¬ Fails server outcomes .noOtherAddress) := by
  refine ⟨fun t => natType_found_eq_iff, fun e => error_found_eq_some_iff, ?_, ?_⟩
  · constructor
    · intro herror t ht hreaches
      exact ht ((natType_found_eq_iff.mpr hreaches).symm.trans herror)
    · intro hnone
      by_cases herror : (found server outcomes).natType = .error
      · exact herror
      · exact absurd (natType_found_eq_iff.mp rfl) (hnone _ herror)
  · constructor
    · intro hmismatch
      refine ⟨natType_found_eq_iff.mpr ⟨_, error_found_eq_some_iff.mp hmismatch⟩, ?_, ?_⟩
      · intro e hfails
        cases (error_found_eq_some_iff.mpr hfails).symm.trans hmismatch
      · intro hfails
        cases (error_found_eq_some_iff.mpr hfails).symm.trans hmismatch
    · rintro ⟨herror, htransport, hnone⟩
      obtain ⟨e, hfails⟩ := natType_found_eq_iff.mp herror
      cases e with
      | transport e => exact absurd hfails (htransport e)
      | noOtherAddress => exact absurd hfails hnone
      | addressMismatch => exact error_found_eq_some_iff.mpr hfails
      | resolve | io => cases hfails

end NatBehavior.Flowchart
