import NatBehavior.Proofs.Network.Waits
import NatBehavior.Settings.Validation

/-! Settings that pass validation describe a detector that every later stage can work with: its
address is one, its schedule is within what durations and clocks can tell, and its requests are
sent. -/
namespace NatBehavior.Settings

variable {s : Settings}

/-- What validation checks. -/
structure Valid (s : Settings) : Prop where
  server : checkServer s.server = .ok ()
  bindAddress : Endpoint.ofText? s.bindAddress.toList ≠ none
  initial_ne_zero : s.initialRtoMs ≠ 0
  initial_le : s.initialRtoMs ≤ s.maxRtoMs
  transmissions_ne_zero : s.maxTransmissions ≠ 0
  transmissions_le : s.maxTransmissions ≤ 32
  deadline_ne_zero : s.deadlineSecs ≠ 0
  logLevel : isLogLevel s.logLevel = true

theorem check_eq_ok_iff {p : Prop} [Decidable p] {e : Invalid} {rest : Except Invalid Unit} :
    (if p then (do throw e; rest) else rest) = .ok () ↔ ¬ p ∧ rest = .ok () := by
  by_cases hp : p <;> simp [hp, throw, throwThe, MonadExceptOf.throw, bind, Except.bind]

theorem validate_eq_ok_iff : s.validate = .ok () ↔ s.Valid := by
  have hlast : (if (!isLogLevel s.logLevel) = true then throw (.badLogLevel s.logLevel)
      else pure () : Except Invalid Unit) = .ok () ↔ isLogLevel s.logLevel = true := by
    cases isLogLevel s.logLevel <;> simp [throw, throwThe, MonadExceptOf.throw, pure, Except.pure]
  have hserver : ∀ rest : Except Invalid Unit,
      (do checkServer s.server; rest) = .ok () ↔ checkServer s.server = .ok () ∧ rest = .ok () := by
    intro rest
    cases checkServer s.server <;> simp [bind, Except.bind]
  unfold validate
  rw [hserver, check_eq_ok_iff, check_eq_ok_iff, check_eq_ok_iff, check_eq_ok_iff, hlast,
    Option.isNone_iff_eq_none, not_or, not_or, UInt64.not_lt, UInt32.not_lt]
  constructor
  · rintro ⟨hserver, hbind, ⟨hinitial, hmax⟩, ⟨hsome, hmany⟩, hdeadline, hlevel⟩
    exact ⟨hserver, hbind, hinitial, hmax, hsome, hmany, hdeadline, hlevel⟩
  · intro h
    exact ⟨h.server, h.bindAddress, ⟨h.initial_ne_zero, h.initial_le⟩,
      ⟨h.transmissions_ne_zero, h.transmissions_le⟩, h.deadline_ne_zero, h.logLevel⟩

/-! ### The detector -/

/-- The schedule that the settings describe. -/
def schedule (s : Settings) : Retransmission :=
  ⟨.ofMillis s.initialRtoMs, .ofMillis s.maxRtoMs, s.maxTransmissions.toNat⟩

theorem detector?_eq {bind : Endpoint} (h : Endpoint.ofText? s.bindAddress.toList = some bind) :
    s.detector? = some ⟨s.server, bind,
      if s.software = "" then none else some s.software, s.schedule⟩ := by
  simp only [detector?, h, String.isEmpty_iff, schedule]
  rfl

namespace Valid

theorem one_le_initial (h : s.Valid) : Duration.ofMillis 1 ≤ .ofMillis s.initialRtoMs := by
  refine Duration.ofMillis_le_ofMillis (UInt64.le_iff_toNat_le.mpr ?_)
  have hne : s.initialRtoMs.toNat ≠ 0 := fun hzero =>
    h.initial_ne_zero (UInt64.toNat_inj.mp hzero)
  exact Nat.one_le_iff_ne_zero.mpr hne

theorem one_le_deadline (h : s.Valid) : Duration.ofSecs 1 ≤ s.deadline := by
  have hne : s.deadlineSecs.toNat ≠ 0 := fun hzero =>
    h.deadline_ne_zero (UInt64.toNat_inj.mp hzero)
  exact Nat.mul_le_mul_right 1000000000 (Nat.one_le_iff_ne_zero.mpr hne)

theorem transmissions_pos (h : s.Valid) : 0 < s.schedule.transmissions :=
  Nat.pos_of_ne_zero fun hzero => h.transmissions_ne_zero (UInt32.toNat_inj.mp hzero)

theorem transmissions_le_limit (h : s.Valid) : s.schedule.transmissions ≤ 32 :=
  UInt32.le_iff_toNat_le.mp h.transmissions_le

theorem first_schedule (h : s.Valid) : s.schedule.first = .ofMillis s.initialRtoMs :=
  Duration.min_eq_left (Duration.ofMillis_le_ofMillis h.initial_le)

/-- Even the longest waits of 64 bits are far below the range of durations, and four probes with
them take less than 2 ^ 62 seconds. -/
theorem total_lt (h : s.Valid) :
    s.schedule.total < Duration.longest.nanos ∧
      4 * s.schedule.total < 4611686018427387904 * 1000000000 := by
  have htotal : s.schedule.total ≤ s.schedule.transmissions * (s.maxRtoMs.toNat * 1000000) :=
    s.schedule.total_le
  have hmax : s.maxRtoMs.toNat * 1000000 ≤ 18446744073709551615 * 1000000 :=
    Nat.mul_le_mul_right _ (Nat.le_of_lt_succ s.maxRtoMs.toNat_lt)
  have hlimit := Nat.mul_le_mul h.transmissions_le_limit hmax
  have hlongest : Duration.longest.nanos = 18446744073709551616 * 1000000000 - 1 := rfl
  omega

end Valid

/-- Settings that pass validation describe a detector whose schedule stays within what durations
can tell. No run of discovery on it is stopped by a clock that can still tell 2 ^ 62 seconds, and no
probe ends without having sent its request, unless that is refused. -/
theorem detector_of_validate (h : s.validate = .ok ()) :
    ∃ d, s.detector? = some d ∧ d.server = s.server ∧
      Endpoint.ofText? s.bindAddress.toList = some d.bind ∧
      (d.software = none ↔ s.software = "") ∧
      (s.software ≠ "" → d.software = some s.software) ∧
      let waits := d.retransmission.waits
      (waits.length = s.maxTransmissions.toNat ∧ 1 ≤ waits.length ∧ waits.length ≤ 32) ∧
      waits.head? = some (.ofMillis s.initialRtoMs) ∧ waits.Pairwise (· ≤ ·) ∧
      (∀ wait ∈ waits, Duration.ofMillis 1 ≤ wait ∧ wait ≤ .ofMillis s.maxRtoMs) ∧
      (∃ total, d.retransmission.totalWait? = some total ∧
        total.nanos ≤ s.maxTransmissions.toNat * s.maxRtoMs.toNat * 1000000) ∧
      Duration.ofSecs 1 ≤ s.deadline ∧
      ∀ (site : Site) (server : Endpoint) (w : World), w.script = [] → InOrder w.inbox →
        (w.now + 4611686018427387904 * 1000000000 ≤ site.clockEnd →
          ∃ c, (((d.discoverWith site.socket server).run).run w).1 = .ok c) ∧
        ∀ step ∈ site.detection d server w,
          let request := (probeRequest (site.transactionOf step) step.change d.software).encode
          site.refusal? request step.dest.toEndpoint step.before.sent.length step.before.now =
            none → Site.traffic step ≠ [] := by
  have valid : s.Valid := validate_eq_ok_iff.mp h
  obtain ⟨bind, hbind⟩ := Option.ne_none_iff_exists'.mp valid.bindAddress
  obtain ⟨hlongest, hclock⟩ := valid.total_lt
  refine ⟨_, detector?_eq hbind, rfl, hbind, ?_, fun hsome => if_neg hsome,
    ⟨Retransmission.length_waits _, ?_, ?_⟩, ?_, Retransmission.pairwise_waits _, ?_, ?_,
    valid.one_le_deadline, ?_⟩
  · dsimp only
    split <;> simp_all
  · rw [Retransmission.length_waits]
    exact valid.transmissions_pos
  · rw [Retransmission.length_waits]
    exact valid.transmissions_le_limit
  · rw [Retransmission.head?_waits valid.transmissions_pos, valid.first_schedule]
  · intro wait hwait
    obtain ⟨hlow, hhigh⟩ := Retransmission.le_of_mem_waits hwait
    rw [valid.first_schedule] at hlow
    exact ⟨le_trans valid.one_le_initial hlow, hhigh⟩
  · refine ⟨⟨s.schedule.total, Nat.lt_trans hlongest (by decide)⟩, ?_, ?_⟩
    · rw [Retransmission.totalWait?_eq]
      exact dif_pos _
    · rw [Nat.mul_assoc]
      exact s.schedule.total_le
  · intro site server w hscript horder
    refine ⟨fun hroom => ?_, fun step hstep hsend => ?_⟩
    · exact Site.exists_discoverWith_eq_ok server hscript horder
        ((Nat.add_lt_add_left hclock _).trans_le hroom)
    · obtain ⟨-, burst, -⟩ :=
        Site.burst_of_mem_steps hscript horder valid.transmissions_pos hstep
      exact burst.ne_nil_iff.mpr hsend

/-- As many transmissions as there can be, all with the longest wait of 64 bits. -/
theorem detector_of_validate_extreme :
    let s : Settings := { initialRtoMs := 18446744073709551615, maxRtoMs := 18446744073709551615,
                          maxTransmissions := 32, deadlineSecs := 1, software := "" }
    s.validate = .ok () ∧ ∃ d, s.detector? = some d ∧ d.software = none ∧
      d.retransmission.waits.head? = some (.ofMillis 18446744073709551615) ∧
      (∃ total, d.retransmission.totalWait? = some total ∧
        total.nanos ≤ 32 * 18446744073709551615 * 1000000) ∧
      let site : Site := ⟨.loopback, .v4 ⟨127, 0, 0, 1⟩ 40000, [],
        fun i => ⟨UInt8.ofNat i :: List.replicate 11 0, rfl⟩,
        9223372036854775807000000000, fun _ _ => none⟩
      let ended :=
        ((d.discoverWith site.socket (.v4 ⟨127, 0, 0, 1⟩ 3478)).run).run (World.start [])
      ∃ c, ended.1 = .ok c := by
  intro s
  have hvalid : s.validate = .ok () := by decide +kernel
  obtain ⟨d, hdetector, -, -, hsoftware, -, -, hhead, -, -, htotal, -, hrun⟩ :=
    detector_of_validate hvalid
  exact ⟨hvalid, d, hdetector, hsoftware.mpr rfl, hhead, htotal,
    (hrun _ _ (World.start []) rfl .nil).1 (by decide)⟩

end NatBehavior.Settings
