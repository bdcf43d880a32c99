import Mathlib.Algebra.Order.BigOperators.Group.List
import NatBehavior.Proofs.Discovery.Detector
import NatBehavior.Proofs.Network.Isolation

/-! What a run of discovery sends. Each probe sends one request over and over until a reply comes
or its waits are over, and a run issues at most four probes, one after another. A request that is
refused, a receive that fails and the end of the clock cut a probe short, and the run with it. -/
namespace NatBehavior.Site

open Inquiry (Step)
open Retransmission (elapsed)

variable {site : Site} {r : Retransmission} {id : Stun.TransactionId} {request : Bytes}
  {target : Endpoint} {w w' : World} {waits : List Duration}
  {result : Except Halt (Except IoError (Option (Stun.Message × Endpoint)))}
  {answer : Except Halt ProbeOutcome} {sent : List Transmission}

/-! ### One exchange -/

theorem length_transmissions (start count : Nat) :
    (site.transmissions request target waits start count).length = count := by
  rw [transmissions, List.length_map, List.length_range]

/-- Why a probe sent its request that often and no more. What was received came in the wait after
the last time. -/
inductive CutShort (site : Site) (id : Stun.TransactionId) (request : Bytes) (target : Endpoint)
    (waits : List Duration) (w : World) (answer : Except Halt ProbeOutcome) (w' : World)
    (count : Nat) : Prop
  | replied {a : Arrival} {m : Stun.Message} {source : Endpoint} (ha : a ∈ w.inbox)
    (hbears : a.Bears id m source) (hnow : w'.now = max w.now a.due)
    (hstart : w.now + elapsed waits (count - 1) ≤ w'.now)
    (hend : w'.now < w.now + elapsed waits count)
  | failed {a : Arrival} {e : IoError} (ha : a ∈ w.inbox) (hfails : a.Fails e)
    (hnow : w'.now = max w.now a.due) (hstart : w.now + elapsed waits (count - 1) ≤ w'.now)
    (hend : w'.now < w.now + elapsed waits count) (hanswer : answer = .ok (.error (.io e)))
  | refused {e : IoError}
    (hrefused : site.refusal? request target (w.sent.length + count)
      (w.now + elapsed waits count) = some e)
    (hnow : w'.now = w.now + elapsed waits count) (hanswer : answer = .ok (.error (.io e)))
  | stopped (hclock : site.clockEnd ≤ w.now + elapsed waits count)
    (hanswer : answer = .error .pastClock)

/-- What a probe sends: copies of its request to one address, each at the start of a wait. There is
no copy only where the first one is refused, which is the end of the probe. -/
structure Burst (site : Site) (id : Stun.TransactionId) (request : Bytes) (target : Endpoint)
    (waits : List Duration) (w : World) (answer : Except Halt ProbeOutcome) (w' : World)
    (sent : List Transmission) : Prop where
  copies : sent = site.transmissions request target waits w.now sent.length
  length_le : sent.length ≤ waits.length
  ne_nil_iff : sent ≠ [] ↔ site.refusal? request target w.sent.length w.now = none
  short : sent.length < waits.length →
    CutShort site id request target waits w answer w' sent.length

theorem Burst.all (burst : Burst site id request target waits w answer w' sent) {t : Transmission}
    (ht : t ∈ sent) : t.dest = target ∧ t.payload = request := by
  rw [burst.copies, transmissions, List.mem_map] at ht
  obtain ⟨k, -, rfl⟩ := ht
  exact ⟨rfl, rfl⟩

/-- So many copies of a request. -/
theorem Burst.of_transmissions {count : Nat} (hle : count ≤ waits.length)
    (hpos : 0 < count ↔ site.refusal? request target w.sent.length w.now = none)
    (hshort : count < waits.length →
      CutShort site id request target waits w answer w' count) :
    Burst site id request target waits w answer w'
      (site.transmissions request target waits w.now count) := by
  have hlength : (site.transmissions request target waits w.now count).length = count :=
    length_transmissions w.now count
  constructor
  · rw [hlength]
  · rw [hlength]
    exact hle
  · rw [← List.length_pos_iff, hlength]
    exact hpos
  · rw [hlength]
    exact hshort

/-- An exchange that goes on to a later wait than its first was not refused at once. -/
theorem Pending.refusal?_eq_none {k : Nat} (h : Pending site id request target waits w k)
    (hk : 0 < k) : site.refusal? request target w.sent.length w.now = none := h.taken 0 hk

theorem Exchanged.exists_burst {taken : Nat}
    (h : Exchanged site id request target waits { w with taken } result w') (hwaits : waits ≠ []) :
    ∃ sent, w'.sent = sent.reverse ++ w.sent ∧
      Burst site id request target waits w (result.map (site.judged target)) w' sent ∧
      (result = .ok (.ok none) → sent.length = waits.length) := by
  cases h with
  | @refused k e pending hk hrefused =>
    refine ⟨site.transmissions request target waits w.now k, rfl,
      .of_transmissions (Nat.le_of_lt hk) ?_ fun _ => .refused hrefused rfl rfl, nofun⟩
    cases k with
    | zero => exact iff_of_false (Nat.lt_irrefl 0) fun hnone => by cases hnone.symm.trans hrefused
    | succ k => exact iff_of_true (Nat.succ_pos k) (pending.refusal?_eq_none (Nat.succ_pos k))
  | @stopped k pending hk hsent hclock =>
    refine ⟨site.transmissions request target waits w.now (k + 1), rfl,
      .of_transmissions hk (iff_of_true (Nat.succ_pos k) ?_) fun _ => .stopped hclock rfl, nofun⟩
    cases k with
    | zero => exact hsent
    | succ k => exact pending.refusal?_eq_none (Nat.succ_pos k)
  | @ended before after a ending j pending hj hsent hclock hinbox _ ha hstart hend =>
    have hmem : a ∈ w.inbox := by
      have hinbox : w.inbox = before ++ a :: after := hinbox
      simp [hinbox]
    refine ⟨site.transmissions request target waits w.now (j + 1), rfl,
      .of_transmissions hj (iff_of_true (Nat.succ_pos j) ?_) fun _ => ?_, ?_⟩
    · cases j with
      | zero => exact hsent
      | succ j => exact pending.refusal?_eq_none (Nat.succ_pos j)
    · cases ending with
      | error e => exact .failed hmem (Arrival.ending?_eq_error_iff.mp ha) rfl hstart hend rfl
      | ok reply => exact .replied hmem (Arrival.ending?_eq_ok_iff.mp ha) rfl hstart hend
    · cases ending <;> nofun
  | silent pending =>
    have hpos : 0 < waits.length := List.length_pos_iff.mpr hwaits
    exact ⟨site.transmissions request target waits w.now waits.length, rfl,
      .of_transmissions (Nat.le_refl _) (iff_of_true hpos (pending.refusal?_eq_none hpos))
        fun hlt => absurd hlt (Nat.lt_irrefl _),
      fun _ => length_transmissions _ _⟩

/-! ### One probe of a run -/

/-- The datagrams that were sent during a probe, in order. -/
def traffic (step : Step Halt World) : List Transmission :=
  (step.after.sent.take (step.after.sent.length - step.before.sent.length)).reverse

/-- Only an exchange that ends in silence makes a probe silent. -/
theorem eq_ok_none_of_judged {found : Except IoError (Option (Stun.Message × Endpoint))}
    (h : site.judged target found = .ok none) : found = .ok none := by
  rcases found with e | _ | ⟨m, source⟩
  · cases h
  · rfl
  · cases hown : site.machine.ownToward site.bound target with
    | error e =>
      rw [judged_reply_of_error hown] at h
      cases h
    | ok own =>
      rw [judged_reply_of_ok hown] at h
      cases hread : Response.ofMessage m source own with
      | error e =>
        rw [hread] at h
        cases h
      | ok response =>
        rw [hread] at h
        cases h

theorem eq_ok_ok_none_of_map_judged (h : result.map (site.judged target) = .ok (.ok none)) :
    result = .ok (.ok none) := by
  cases result with
  | error halt => cases h
  | ok found => exact congrArg _ (eq_ok_none_of_judged (Except.ok.inj h))

theorem traffic_eq {step : Step Halt World} {sent : List Transmission}
    (h : step.after.sent = sent.reverse ++ step.before.sent) : traffic step = sent := by
  rw [traffic, h, List.length_append, Nat.add_sub_cancel, List.take_left, List.reverse_reverse]

variable {software : Option String}

theorem burst_of_mem_steps {inquiry : Inquiry} (hscript : w.script = []) (horder : InOrder w.inbox)
    (hsome : 0 < r.transmissions) {step : Step Halt World}
    (hstep : step ∈ inquiry.steps (site.socket.probe r software) w) :
    step.after.sent = (traffic step).reverse ++ step.before.sent ∧
    Burst site (site.transactionOf step)
      (probeRequest (site.transactionOf step) step.change software).encode step.dest.toEndpoint
      r.waits step.before step.answer step.after (traffic step) ∧
    (step.answer = .ok (.ok none) → (traffic step).length = r.transmissions) := by
  obtain ⟨-, result, hexchanged, hanswer⟩ := exchanged_of_mem_steps hscript horder hstep
  have hwaits : r.waits ≠ [] := by
    rw [← List.length_pos_iff, Retransmission.length_waits]
    exact hsome
  obtain ⟨sent, hsent, burst, hall⟩ := hexchanged.exists_burst hwaits
  rw [traffic_eq hsent, hanswer]
  refine ⟨hsent, burst, fun hsilent => ?_⟩
  rw [hall (eq_ok_ok_none_of_map_judged hsilent), Retransmission.length_waits]

/-! ### The whole run -/

theorem length_detection_le (site : Site) (d : Detector) (server : Endpoint) (w : World) :
    (site.detection d server w).length ≤ 4 := by
  obtain ⟨outcomes, hprobes⟩ : ∃ outcomes, (site.detection d server w).map Step.question <+: _ :=
    Inquiry.questions_steps_prefix (classify (.ofEndpoint server)) w
  have hlength := hprobes.length_le
  rw [List.length_map] at hlength
  exact hlength.trans (Flowchart.length_probes_le _ outcomes)

section

variable {d : Detector} {server : Endpoint} (hscript : w.script = []) (horder : InOrder w.inbox)
  (hsome : 0 < d.retransmission.transmissions)
include hscript horder hsome

end

end NatBehavior.Site
