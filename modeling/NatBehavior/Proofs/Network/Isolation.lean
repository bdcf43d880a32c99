import Mathlib.Data.List.Nodup
import NatBehavior.Discovery.Detector
import NatBehavior.Proofs.Discovery.Probes
import NatBehavior.Proofs.Network.Exchange

/-! A whole run of discovery against datagrams that arrive by a schedule. All probes read one
queue, so each finds what the ones before it left. What is added to the schedule and is no reply
to the probe that reads it is passed over: the two runs go in lockstep, and what is still on its
way differs by nothing but what was added. -/
namespace NatBehavior

open Inquiry (Step)
open Retransmission (elapsed)

/-- A schedule, and the same schedule with events added. What may be added can depend on what comes
behind it. -/
inductive Padded (stray : Arrival → List Arrival → Prop) : List Arrival → List Arrival → Prop
  | nil : Padded stray [] []
  | keep {a : Arrival} {schedule noisy : List Arrival} (rest : Padded stray schedule noisy) :
    Padded stray (a :: schedule) (a :: noisy)
  | add {e : Arrival} {schedule noisy : List Arrival} (hstray : stray e schedule)
      (rest : Padded stray schedule noisy) :
    Padded stray schedule (e :: noisy)

theorem Padded.sublist {stray : Arrival → List Arrival → Prop} {schedule noisy : List Arrival}
    (h : Padded stray schedule noisy) : schedule.Sublist noisy := by
  induction h with
  | nil => exact .slnil
  | keep _ ih => exact ih.cons_cons _
  | add _ _ ih => exact ih.cons _

/-! ### One wait -/

namespace World

variable {stray : Arrival → List Arrival → Prop} {id : Stun.TransactionId} {deadline now : Nat}
  {inbox noisy : List Arrival}

/-- A wait that is over early has received something. -/
theorem awaited_eq_deadline_or (id : Stun.TransactionId) (deadline now : Nat)
    (inbox : List Arrival) :
    (awaited id deadline now inbox).2.1 = deadline ∨
      (awaited id deadline now inbox).2.2.length < inbox.length := by
  cases inbox with
  | nil => exact .inl rfl
  | cons a inbox =>
    by_cases htime : max now a.due < deadline
    · right
      cases ha : a.ending? id with
      | none =>
        rw [awaited_cons_of_none htime ha]
        exact Nat.lt_succ_of_le (awaited_suffix id deadline (max now a.due) inbox).length_le
      | some ending =>
        rw [awaited_cons_of_some htime ha]
        exact Nat.lt_succ_self _
    · left
      rw [awaited_cons_of_late htime]

/-- A wait passes over whatever is added that does not end it, or comes when it is over. -/
theorem awaited_padded (h : Padded stray inbox noisy) (hnoisy : InOrder noisy)
    {found : Except IoError (Option (Stun.Message × Endpoint))} {finish : Nat} {rest : List Arrival}
    (hawaited : awaited id deadline now inbox = (found, finish, rest))
    (hstray : ∀ e behind, stray e behind →
      e.ending? id = none ∨ finish ≤ e.due ∧ behind <:+ rest) :
    ∃ left, InOrder left ∧ Padded stray rest left ∧
      awaited id deadline now noisy = (found, finish, left) := by
  induction h generalizing now with
  | nil =>
    obtain ⟨rfl, rfl, rfl⟩ := hawaited
    exact ⟨[], hnoisy, .nil, rfl⟩
  | @keep a inbox noisy rest ih =>
    by_cases htime : max now a.due < deadline
    · cases ha : a.ending? id with
      | none =>
        rw [awaited_cons_of_none htime ha] at hawaited ⊢
        exact ih (List.pairwise_cons.mp hnoisy).2 hawaited
      | some ending =>
        rw [awaited_cons_of_some htime ha] at hawaited ⊢
        obtain ⟨rfl, rfl, rfl⟩ := hawaited
        exact ⟨noisy, (List.pairwise_cons.mp hnoisy).2, rest, rfl⟩
    · rw [awaited_cons_of_late htime] at hawaited ⊢
      obtain ⟨rfl, rfl, rfl⟩ := hawaited
      exact ⟨a :: noisy, hnoisy, .keep rest, rfl⟩
  | @add e inbox noisy hadded rest ih =>
    have hlater : ∀ a ∈ inbox, e.due ≤ a.due := fun a ha =>
      (List.pairwise_cons.mp hnoisy).1 a (rest.sublist.subset ha)
    by_cases htime : max now e.due < deadline
    · have hnone : e.ending? id = none := by
        rcases hstray e inbox hadded with hnone | ⟨hlate, hbehind⟩
        · exact hnone
        · -- What stands in front of the whole schedule comes when nothing was received of it.
          have hfinish := awaited_eq_deadline_or id deadline now inbox
          rw [hawaited] at hfinish
          rcases hfinish with hfinish | hshort
          · have hfinish : finish = deadline := hfinish
            omega
          · exact absurd hbehind.length_le (Nat.not_le.mpr hshort)
      rw [← awaited_max hlater] at hawaited
      rw [awaited_cons_of_none htime hnone]
      exact ih (List.pairwise_cons.mp hnoisy).2 hawaited
    · rw [awaited_of_late fun a ha => by have hdue := hlater a ha; omega] at hawaited
      obtain ⟨rfl, rfl, rfl⟩ := hawaited
      rw [awaited_cons_of_late htime]
      exact ⟨e :: noisy, hnoisy, .add hadded rest, rfl⟩

end World

/-! ### One probe -/

namespace Site

variable {site : Site} {r : Retransmission} {id : Stun.TransactionId} {request : Bytes}
  {target : Endpoint} {w w' : World} {waits : List Duration}
  {result : Except Halt (Except IoError (Option (Stun.Message × Endpoint)))}
  {stray : Arrival → List Arrival → Prop} {noisy : List Arrival}

/-- An exchange brings nothing on its way. -/
theorem Exchanged.inbox_suffix (h : Exchanged site id request target waits w result w') :
    w'.inbox <:+ w.inbox := by
  cases h with
  | refused | stopped | silent => exact List.dropWhile_suffix _
  | @ended before after a _ j _ _ _ _ hinbox =>
    rw [hinbox]
    exact (List.suffix_cons a after).trans (List.suffix_append _ _)

theorem Exchanged.script_eq (h : Exchanged site id request target waits w result w') :
    w'.script = w.script := by
  cases h <;> rfl

theorem Exchanged.le_now (h : Exchanged site id request target waits w result w') :
    w.now ≤ w'.now := by
  cases h with
  | refused | stopped | silent => exact Nat.le_add_right _ _
  | ended => exact Nat.le_max_left _ _

/-- An exchange passes over whatever is added that does not end it, or comes when it is over. -/
theorem exchanged_padded (hscript : w.script = []) (horder : InOrder w.inbox)
    (h : Padded stray w.inbox noisy) (hnoisy : InOrder noisy)
    (hended : site.exchanged id request target waits w = (result, w'))
    (hstray : ∀ e behind, stray e behind →
      e.ending? id = none ∨ w'.now ≤ e.due ∧ behind <:+ w'.inbox) :
    ∃ left, InOrder left ∧ Padded stray w'.inbox left ∧
      site.exchanged id request target waits { w with inbox := noisy } =
        (result, { w' with inbox := left }) := by
  induction waits generalizing w noisy with
  | nil =>
    obtain ⟨rfl, rfl⟩ := Prod.mk.inj hended
    exact ⟨noisy, hnoisy, h, rfl⟩
  | cons wait waits ih =>
    let v : World := { w with inbox := noisy }
    cases hsend : site.refusal? request target w.sent.length w.now with
    | some e =>
      rw [exchanged_cons_of_refused hsend] at hended
      rw [exchanged_cons_of_refused (w := v) hsend]
      obtain ⟨rfl, rfl⟩ := Prod.mk.inj hended
      exact ⟨noisy, hnoisy, h, rfl⟩
    | none =>
      by_cases hclock : site.clockEnd ≤ w.now + wait.nanos
      · rw [exchanged_cons_of_pastClock hscript hsend hclock] at hended
        rw [exchanged_cons_of_pastClock (w := v) hscript hsend hclock]
        obtain ⟨rfl, rfl⟩ := Prod.mk.inj hended
        exact ⟨noisy, hnoisy, h, rfl⟩
      · rcases hawaited : World.awaited id (w.now + wait.nanos) w.now w.inbox with
          ⟨found, now, inbox⟩
        rcases eq_ok_none_or_eq_map_some found with rfl | ⟨ending, rfl⟩
        · rw [exchanged_cons_of_silence hscript hsend hclock hawaited] at hended
          have horder : InOrder inbox := World.inOrder_of_awaited horder hawaited
          -- What is over when the exchange is was over when its first wait was.
          let first : Transmission := ⟨w.now, site.sourceToward target, target, request⟩
          let u : World := { w with now, inbox, sent := first :: w.sent }
          have hlater : Exchanged site id request target waits u _ _ :=
            exchanged_cases hscript horder
          rw [hended] at hlater
          obtain ⟨left, hleft, hrest, hloud⟩ := World.awaited_padded h hnoisy hawaited
            fun e behind hadded => (hstray e behind hadded).imp_right fun ⟨hlate, hbehind⟩ =>
              ⟨hlater.le_now.trans hlate, hbehind.trans hlater.inbox_suffix⟩
          rw [exchanged_cons_of_silence (w := v) hscript hsend hclock hloud]
          exact ih (w := u) hscript horder hrest hleft hended
        · rw [exchanged_cons_of_ended hscript hsend hclock hawaited] at hended
          obtain ⟨rfl, rfl⟩ := Prod.mk.inj hended
          obtain ⟨left, hleft, hrest, hloud⟩ := World.awaited_padded h hnoisy hawaited hstray
          rw [exchanged_cons_of_ended (w := v) hscript hsend hclock hloud]
          exact ⟨left, hleft, hrest, rfl⟩

/-- What a probe makes of the end of its exchange. -/
def judged (site : Site) (target : Endpoint) :
    Except IoError (Option (Stun.Message × Endpoint)) → ProbeOutcome
  | .error e => .error (.io e)
  | .ok none => .ok none
  | .ok (some (m, source)) =>
    match site.machine.ownToward site.bound target with
    | .ok own => (Response.ofMessage m source own).map some
    | .error e => .error (.io e.toIoError)

theorem judged_reply_of_ok {m : Stun.Message} {source own : Endpoint}
    (h : site.machine.ownToward site.bound target = .ok own) :
    site.judged target (.ok (some (m, source))) = (Response.ofMessage m source own).map some := by
  rw [judged, h]

theorem judged_reply_of_error {m : Stun.Message} {source : Endpoint} {e : OsError}
    (h : site.machine.ownToward site.bound target = .error e) :
    site.judged target (.ok (some (m, source))) = .error (.io e.toIoError) := by
  rw [judged, h]

/-- What a probe judges came in a datagram of its transaction, in one of its waits. -/
theorem Exchanged.judged_cases (h : Exchanged site id request target waits w result w') :
    let answer := result.map (site.judged target)
    answer = .error .pastClock ∨ answer = .ok (.ok none) ∨
    (∃ e, answer = .ok (.error (.io e))) ∨
    ∃ a ∈ w.inbox, ∃ m source own, a.Bears id m source ∧
      answer = .ok ((Response.ofMessage m source own).map some) ∧
      w'.now = max w.now a.due ∧
      ∃ j < waits.length, w.now + elapsed waits j ≤ w'.now ∧
        w'.now < w.now + elapsed waits (j + 1) := by
  intro answer
  cases h with
  | stopped => exact .inl rfl
  | silent => exact .inr (.inl rfl)
  | refused => exact .inr (.inr (.inl ⟨_, rfl⟩))
  | @ended _ _ a ending j _ hj _ _ hinbox _ ha hstart hend =>
    right
    right
    rcases ending with e | ⟨m, source⟩
    · exact .inl ⟨e, rfl⟩
    · cases hown : site.machine.ownToward site.bound target with
      | error e => exact .inl ⟨e.toIoError, congrArg Except.ok (judged_reply_of_error hown)⟩
      | ok own =>
        exact .inr ⟨a, by simp [hinbox], m, source, own, Arrival.ending?_eq_ok_iff.mp ha,
          congrArg Except.ok (judged_reply_of_ok hown), rfl, j, hj, hstart, hend⟩

theorem Exchanged.sent_eq (h : Exchanged site id request target waits w result w') :
    ∃ count ≤ waits.length,
      w'.sent = (site.transmissions request target waits w.now count).reverse ++ w.sent := by
  cases h with
  | @refused k _ _ hk => exact ⟨k, Nat.le_of_lt hk, rfl⟩
  | @stopped k _ hk => exact ⟨k + 1, hk, rfl⟩
  | @ended _ _ _ _ j _ hj => exact ⟨j + 1, hj, rfl⟩
  | silent => exact ⟨waits.length, Nat.le_refl _, rfl⟩

variable {software : Option String} {dest : Host} {change : ChangeRequest}

/-- What a probe comes to, by its exchange. -/
def probed (site : Site) (r : Retransmission) (software : Option String) (dest : Host)
    (change : ChangeRequest) (w : World) : Except Halt ProbeOutcome × World :=
  let id := site.transactions w.taken
  let (result, w') := site.exchanged id (probeRequest id change software).encode dest.toEndpoint
    r.waits { w with taken := w.taken + 1 }
  (result.map (site.judged dest.toEndpoint), w')

theorem run_probe (w : World) :
    ((site.socket.probe r software dest change).run).run w =
      site.probed r software dest change w := by
  have hfresh : ((site.socket.fresh).run).run w =
      (.ok (site.transactions w.taken), { w with taken := w.taken + 1 }) := rfl
  let request := probeRequest (site.transactions w.taken) change software
  let w' := { w with taken := w.taken + 1 }
  have hexchange : ((site.socket.exchange r request dest.toEndpoint).run.run).run w' =
      site.exchanged (site.transactions w.taken) request.encode dest.toEndpoint r.waits w' :=
    run_exchange site r request dest.toEndpoint w'
  rw [Socket.probe, run_bind_of_ok hfresh, probed]
  dsimp only
  generalize site.exchanged _ _ _ _ _ = ended at hexchange ⊢
  obtain ⟨halt | e | _ | ⟨m, source⟩, w'⟩ := ended
  · exact run_bind_of_error hexchange
  · exact run_bind_of_ok hexchange
  · exact run_bind_of_ok hexchange
  · refine (run_bind_of_ok hexchange).trans ?_
    dsimp only [socket]
    rw [Except.map]
    cases hown : site.machine.ownToward site.bound dest.toEndpoint with
    | error e =>
      rw [judged_reply_of_error hown]
      rfl
    | ok own =>
      rw [judged_reply_of_ok hown]
      rfl

/-- A probe over the client's socket as a function of the world, which can be evaluated. -/
theorem probe_eq_probed (site : Site) (r : Retransmission) (software : Option String) :
    site.socket.probe r software = fun dest change =>
      ExceptT.mk (site.probed r software dest change : StateM World (Except Halt ProbeOutcome)) := by
  funext dest change w
  exact run_probe w

theorem exchanged_probed (site : Site) (r : Retransmission) (software : Option String)
    (dest : Host) (change : ChangeRequest) (hscript : w.script = []) (horder : InOrder w.inbox) :
    ∃ result,
      Exchanged site (site.transactions w.taken)
        (probeRequest (site.transactions w.taken) change software).encode dest.toEndpoint r.waits
        { w with taken := w.taken + 1 } result (site.probed r software dest change w).2 ∧
      (site.probed r software dest change w).1 = result.map (site.judged dest.toEndpoint) :=
  ⟨_, exchanged_cases (w := { w with taken := w.taken + 1 }) hscript horder, rfl⟩

/-- A probe passes over whatever is added that does not end it, or comes when it is over. -/
theorem probed_padded (hscript : w.script = []) (horder : InOrder w.inbox)
    (h : Padded stray w.inbox noisy) (hnoisy : InOrder noisy) {answer : Except Halt ProbeOutcome}
    (hprobed : site.probed r software dest change w = (answer, w'))
    (hstray : ∀ e behind, stray e behind → e.ending? (site.transactions w.taken) = none ∨
      w'.now ≤ e.due ∧ behind <:+ w'.inbox) :
    ∃ left, InOrder left ∧ Padded stray w'.inbox left ∧
      site.probed r software dest change { w with inbox := noisy } =
        (answer, { w' with inbox := left }) := by
  obtain ⟨rfl, rfl⟩ := Prod.mk.inj hprobed
  obtain ⟨left, hleft, hrest, hloud⟩ :=
    exchanged_padded (w := { w with taken := w.taken + 1 }) hscript horder h hnoisy rfl hstray
  refine ⟨left, hleft, hrest, ?_⟩
  rw [probed]
  dsimp only at hloud ⊢
  rw [hloud]

/-! ### The whole run -/

/-- Two runs in lockstep. -/
theorem run_padded (inquiry : Inquiry) (hscript : w.script = []) (horder : InOrder w.inbox)
    (h : Padded stray w.inbox noisy) (hnoisy : InOrder noisy)
    (hstray : ∀ step ∈ inquiry.steps (site.socket.probe r software) w, ∀ e behind, stray e behind →
      e.ending? (site.transactions step.before.taken) = none ∨
        step.after.now ≤ e.due ∧ behind <:+ step.after.inbox) :
    ∃ left, ((inquiry.run (site.socket.probe r software)).run).run { w with inbox := noisy } =
      ((((inquiry.run (site.socket.probe r software)).run).run w).1,
        { (((inquiry.run (site.socket.probe r software)).run).run w).2 with inbox := left }) := by
  induction inquiry generalizing w noisy with
  | verdict c => exact ⟨noisy, rfl⟩
  | probe dest change next ih =>
    have hquiet : ((site.socket.probe r software dest change).run).run w = _ := run_probe w
    have hloud : ((site.socket.probe r software dest change).run).run { w with inbox := noisy } = _ :=
      run_probe _
    obtain ⟨result, hexchanged, -⟩ := exchanged_probed site r software dest change hscript horder
    rcases hprobed : site.probed r software dest change w with ⟨halt | outcome, w'⟩
    · rw [hprobed] at hquiet hexchanged
      rw [Inquiry.steps_probe_of_error hquiet, List.forall_mem_singleton] at hstray
      obtain ⟨left, -, -, hpadded⟩ := probed_padded hscript horder h hnoisy hprobed hstray
      rw [hpadded] at hloud
      rw [Inquiry.run_probe_of_error hquiet, Inquiry.run_probe_of_error hloud]
      exact ⟨left, rfl⟩
    · rw [hprobed] at hquiet hexchanged
      rw [Inquiry.steps_probe_of_ok hquiet, List.forall_mem_cons] at hstray
      obtain ⟨left, hleft, hrest, hpadded⟩ :=
        probed_padded hscript horder h hnoisy hprobed hstray.1
      rw [hpadded] at hloud
      rw [Inquiry.run_probe_of_ok hquiet, Inquiry.run_probe_of_ok hloud]
      exact ih outcome (hexchanged.script_eq.trans hscript)
        (horder.sublist hexchanged.inbox_suffix.sublist) hrest hleft hstray.2

/-- A step of a run is an exchange over what the steps before it left. -/
theorem exchanged_of_mem_steps {inquiry : Inquiry} (hscript : w.script = [])
    (horder : InOrder w.inbox) {step : Step Halt World}
    (hstep : step ∈ inquiry.steps (site.socket.probe r software) w) :
    step.before.inbox <:+ w.inbox ∧
    ∃ result,
      Exchanged site (site.transactions step.before.taken)
        (probeRequest (site.transactions step.before.taken) step.change software).encode
        step.dest.toEndpoint r.waits { step.before with taken := step.before.taken + 1 } result
        step.after ∧
      step.answer = result.map (site.judged step.dest.toEndpoint) := by
  have hkeep : ∀ dest change (v : World), v.script = [] ∧ v.inbox <:+ w.inbox →
      (((site.socket.probe r software dest change).run).run v).2.script = [] ∧
      (((site.socket.probe r software dest change).run).run v).2.inbox <:+ w.inbox := by
    rintro dest change v ⟨hscript, hsuffix⟩
    obtain ⟨result, hexchanged, -⟩ :=
      exchanged_probed site r software dest change hscript (horder.sublist hsuffix.sublist)
    rw [run_probe]
    exact ⟨hexchanged.script_eq.trans hscript, hexchanged.inbox_suffix.trans hsuffix⟩
  obtain ⟨⟨hscript, hsuffix⟩, hrun⟩ :=
    Inquiry.of_mem_steps hkeep ⟨hscript, List.suffix_rfl⟩ hstep
  have hexchanged := exchanged_probed site r software step.dest step.change hscript
    (horder.sublist hsuffix.sublist)
  rw [← run_probe, hrun] at hexchanged
  exact ⟨hsuffix, hexchanged⟩

/-- The probes of a run of discovery over the client's socket. -/
def detection (site : Site) (d : Detector) (server : Endpoint) (w : World) :
    List (Step Halt World) :=
  (classify (.ofEndpoint server)).steps (site.socket.probe d.retransmission d.software) w

/-- The transaction that a probe takes. -/
def transactionOf (site : Site) (step : Step Halt World) : Stun.TransactionId :=
  site.transactions step.before.taken

/-- A datagram that no probe of a run is to take for its reply. -/
inductive Stray (site : Site) (steps : List (Step Halt World)) (e : Arrival)
    (behind : List Arrival) : Prop
  /-- It holds no message. -/
  | undecodable {payload : Bytes} {source : Endpoint} (hevent : e.event = .ok ⟨payload, source⟩)
    (h : ∀ m, Stun.Message.decode (payload.take 1024) ≠ .ok m)
  /-- Its message is of a transaction that no probe takes. -/
  | foreign {payload : Bytes} {source : Endpoint} {m : Stun.Message}
    (hevent : e.event = .ok ⟨payload, source⟩)
    (hdecoded : Stun.Message.decode (payload.take 1024) = .ok m)
    (h : ∀ step ∈ steps, m.transaction ≠ site.transactionOf step)
  /-- Its message is of the transaction of a probe that is over when it arrives. Where it arrives
  at the time when the probe ends, it comes behind what the probe received. -/
  | late {step : Step Halt World} {m : Stun.Message} {source : Endpoint} (hstep : step ∈ steps)
    (hbears : e.Bears (site.transactionOf step) m source) (hdue : step.after.now ≤ e.due)
    (hbehind : behind <:+ step.after.inbox)

/-- A datagram ends no wait for another transaction than that of its message. -/
theorem ending?_eq_none_of_transaction_ne {e : Arrival} {payload : Bytes} {source : Endpoint}
    (hevent : e.event = .ok ⟨payload, source⟩)
    (h : ∀ m, Stun.Message.decode (payload.take 1024) = .ok m → m.transaction ≠ id) :
    e.ending? id = none := by
  rw [Arrival.ending?_of_ok hevent, Option.map_eq_none_iff, Option.eq_none_iff_forall_ne_some]
  intro m hreply
  obtain ⟨hdecoded, htransaction⟩ := replyTo?_eq_some_iff.mp hreply
  exact h m hdecoded htransaction

theorem Stray.passed {steps : List (Step Halt World)} {e : Arrival} {behind : List Arrival}
    (h : site.Stray steps e behind) (hdistinct : (steps.map site.transactionOf).Nodup)
    {step : Step Halt World} (hstep : step ∈ steps) :
    e.ending? (site.transactionOf step) = none ∨
      step.after.now ≤ e.due ∧ behind <:+ step.after.inbox := by
  cases h with
  | undecodable hevent h =>
    exact .inl (ending?_eq_none_of_transaction_ne hevent fun m hdecoded => absurd hdecoded (h m))
  | foreign hevent hdecoded h =>
    refine .inl (ending?_eq_none_of_transaction_ne hevent fun m' hdecoded' => ?_)
    obtain rfl := Except.ok.inj (hdecoded.symm.trans hdecoded')
    exact h step hstep
  | @late other m source hother hbears hdue hbehind =>
    by_cases hsame : site.transactionOf step = site.transactionOf other
    · obtain rfl := List.inj_on_of_nodup_map hdistinct hstep hother hsame
      exact .inr ⟨hdue, hbehind⟩
    · obtain ⟨payload, hevent, hdecoded⟩ := hbears.received
      refine .inl (ending?_eq_none_of_transaction_ne hevent fun m' hdecoded' => ?_)
      obtain rfl := Except.ok.inj (hdecoded.symm.trans hdecoded')
      rw [hbears.transaction]
      exact Ne.symm hsame

/-- A run of discovery over one socket, against any schedule. Where the transactions of its probes
differ, datagrams that no probe is to take for its reply change nothing, whatever they are, wherever
they are added and however many there are. The run is what the flowchart says of the outcomes of its
probes, unless the clock stops it. Each probe sends nothing but a request of its own transaction, and
it ends in silence, with a failure of the socket, stopped by the clock, or with what came in a
datagram of that transaction, in one of its own waits. -/
theorem detection_isolated (site : Site) (d : Detector) (server : Endpoint) (w : World)
    (hscript : w.script = []) (horder : InOrder w.inbox) :
    let steps := site.detection d server w
    let ended (schedule : List Arrival) :=
      ((d.discoverWith site.socket server).run).run { w with inbox := schedule }
    let waits := d.retransmission.waits
    ((steps.map site.transactionOf).Nodup →
      ∀ noisy, InOrder noisy → Padded (site.Stray steps) w.inbox noisy →
        (ended noisy).1 = (ended w.inbox).1 ∧
        (ended noisy).2.sent = (ended w.inbox).2.sent ∧
        (ended noisy).2.now = (ended w.inbox).2.now) ∧
    (ended w.inbox).1 = (steps.mapM Step.answer).map (fun outcomes =>
      Flowchart.found (.ofEndpoint server) (Inquiry.thenSilence outcomes)) ∧
    ∀ step ∈ steps,
      (∃ count ≤ waits.length, step.after.sent =
        (site.transmissions (probeRequest (site.transactionOf step) step.change d.software).encode
          step.dest.toEndpoint waits step.before.now count).reverse ++ step.before.sent) ∧
      (step.answer = .error .pastClock ∨ step.answer = .ok (.ok none) ∨
        (∃ e, step.answer = .ok (.error (.io e))) ∨
        ∃ a ∈ w.inbox, ∃ m source own, a.Bears (site.transactionOf step) m source ∧
          step.answer = .ok ((Response.ofMessage m source own).map some) ∧
          step.after.now = max step.before.now a.due ∧
          ∃ j < waits.length, step.before.now + elapsed waits j ≤ step.after.now ∧
            step.after.now < step.before.now + elapsed waits (j + 1)) := by
  intro steps ended waits
  refine ⟨?_, ?_, ?_⟩
  · intro hdistinct noisy hnoisy hpadded
    obtain ⟨left, hleft⟩ := run_padded (classify (.ofEndpoint server)) hscript horder hpadded hnoisy
      fun step hstep e behind hstray => hstray.passed hdistinct hstep
    have hended : ended noisy =
        ((ended w.inbox).1, { (ended w.inbox).2 with inbox := left }) := hleft
    rw [hended]
    exact ⟨rfl, rfl, rfl⟩
  · simp only [Flowchart.found_eq_replay]
    exact Inquiry.run_eq_replay_steps (classify (.ofEndpoint server)) w
  · intro step hstep
    obtain ⟨hsuffix, result, hexchanged, hanswer⟩ := exchanged_of_mem_steps hscript horder hstep
    refine ⟨hexchanged.sent_eq, ?_⟩
    rw [hanswer]
    rcases hexchanged.judged_cases with hstopped | hsilent | herror | ⟨a, ha, hjudged⟩
    · exact .inl hstopped
    · exact .inr (.inl hsilent)
    · exact .inr (.inr (.inl herror))
    · exact .inr (.inr (.inr ⟨a, hsuffix.subset ha, hjudged⟩))

/-- The second probe of a run finds noise and a duplicate of the response to the first one. -/
theorem detection_isolated_late_duplicate :
    let site : Site := ⟨.loopback, .v4 ⟨127, 0, 0, 1⟩ 40000, [],
      fun i => ⟨UInt8.ofNat i :: List.replicate 11 0, rfl⟩,
      9223372036854775807000000000, fun _ _ => none⟩
    let server : Endpoint := .v4 ⟨127, 0, 0, 1⟩ 3478
    let d : Detector := ⟨"", site.bound, none, ⟨⟨10, by decide⟩, ⟨40, by decide⟩, 2⟩⟩
    let response : Stun.Message := ⟨.success, site.transactions 0,
      [.xorMappedAddress (.v4 ⟨203, 0, 113, 7⟩ 50000), .otherAddress (.v4 ⟨127, 0, 0, 2⟩ 3479)]⟩
    let answer : Arrival := ⟨15, .ok ⟨response.encode, server⟩⟩
    let noise : Arrival := ⟨17, .ok ⟨[1, 2, 3], server⟩⟩
    let duplicate : Arrival := ⟨20, .ok ⟨response.encode, server⟩⟩
    let w : World := { World.start [] with inbox := [answer] }
    let steps := site.detection d server w
    let ended (schedule : List Arrival) :=
      ((d.discoverWith site.socket server).run).run { w with inbox := schedule }
    w.script = [] ∧ InOrder w.inbox ∧ (steps.map site.transactionOf).Nodup ∧
    InOrder [answer, noise, duplicate] ∧
    Padded (site.Stray steps) w.inbox [answer, noise, duplicate] ∧
    (ended [answer, noise, duplicate]).1 = (ended w.inbox).1 ∧
    (ended w.inbox).1.map Classification.natType = .ok .unknown := by
  intro site server d response answer noise duplicate w steps ended
  have hscript : w.script = [] := rfl
  have horder : InOrder w.inbox := by decide
  have hprobe := probe_eq_probed site d.retransmission d.software
  have hsteps : steps = (classify (.ofEndpoint server)).steps _ w :=
    congrArg (fun ask => (classify (.ofEndpoint server)).steps ask w) hprobe
  have hdistinct : (steps.map site.transactionOf).Nodup := by
    rw [hsteps]
    decide +kernel
  have hnoisy : InOrder [answer, noise, duplicate] := by decide
  have hnoise : site.Stray steps noise [] := by
    refine .undecodable rfl fun m hdecoded => ?_
    cases hdecoded
  have hduplicate : site.Stray steps duplicate [] := by
    have hfirst : ∃ step ∈ steps, response.transaction = site.transactionOf step ∧
        step.after.now ≤ duplicate.due := by
      rw [hsteps]
      decide +kernel
    have hdecoded : Stun.Message.decode (response.encode.take 1024) = .ok response := by
      decide +kernel
    obtain ⟨step, hstep, htransaction, hlate⟩ := hfirst
    exact .late hstep ⟨⟨_, rfl, hdecoded⟩, htransaction⟩ hlate List.nil_suffix
  have hpadded : Padded (site.Stray steps) w.inbox [answer, noise, duplicate] :=
    .keep (.add hnoise (.add hduplicate .nil))
  obtain ⟨hlockstep, hfound, -⟩ := detection_isolated site d server w hscript horder
  refine ⟨hscript, horder, hdistinct, hnoisy, hpadded,
    (hlockstep hdistinct [answer, noise, duplicate] hnoisy hpadded).1, ?_⟩
  change (ended w.inbox).1 = _ at hfound
  rw [hfound]
  change Except.map _ (Except.map _ (steps.mapM Step.answer)) = _
  rw [hsteps]
  decide +kernel

end Site

end NatBehavior
