import NatBehavior.Proofs.Network.Schedule
import NatBehavior.Proofs.Retransmission
import NatBehavior.Proofs.Stun.RoundTrip

/-! One exchange on the virtual clock, against what arrives by a schedule. The waits follow each
other without a gap, so together they are one wait for the first reply, and the only trace of the
single waits is how often the request was sent. The exchange is cut short where a request is
refused, where receiving fails, and where a wait would end past the range of the clock. -/
namespace NatBehavior

namespace Retransmission

/-- How long the first waits take together, in nanoseconds. -/
def elapsed (waits : List Duration) (k : Nat) : Nat := ((waits.take k).map Duration.nanos).sum

@[simp] theorem elapsed_zero (waits : List Duration) : elapsed waits 0 = 0 := rfl

@[simp] theorem elapsed_cons_succ (wait : Duration) (waits : List Duration) (k : Nat) :
    elapsed (wait :: waits) (k + 1) = wait.nanos + elapsed waits k := rfl

/-- A schedule goes on where its first wait ends. -/
theorem add_elapsed_cons_succ (start : Nat) (wait : Duration) (waits : List Duration) (k : Nat) :
    start + elapsed (wait :: waits) (k + 1) = start + wait.nanos + elapsed waits k :=
  (Nat.add_assoc _ _ _).symm

theorem elapsed_le_elapsed {waits : List Duration} {j k : Nat} (h : j ≤ k) :
    elapsed waits j ≤ elapsed waits k := by
  induction waits generalizing j k with
  | nil => simp [elapsed]
  | cons wait waits ih =>
    cases j with
    | zero => exact Nat.zero_le _
    | succ j =>
      obtain ⟨k, rfl⟩ := Nat.exists_eq_add_of_lt h
      rw [elapsed_cons_succ, elapsed_cons_succ]
      exact Nat.add_le_add_left (ih (by omega)) _

end Retransmission

open Retransmission (elapsed add_elapsed_cons_succ)

namespace World

variable {deadline now : Nat}

/-- What is left after a wait arrives no earlier than its end. -/
theorem not_inTime_of_mem_dropWhile {inbox : List Arrival} (horder : InOrder inbox) {a : Arrival}
    (ha : a ∈ inbox.dropWhile (inTime deadline now)) : inTime deadline now a = false := by
  induction inbox with
  | nil => cases ha
  | cons b inbox ih =>
    rw [InOrder, List.pairwise_cons] at horder
    rw [List.dropWhile_cons] at ha
    split at ha
    · exact ih horder.2 ha
    · rename_i hb
      rcases List.mem_cons.mp ha with rfl | ha
      · exact Bool.eq_false_iff.mpr hb
      · have hdue := horder.1 a ha
        rw [inTime_iff] at hb
        rw [Bool.eq_false_iff, ne_eq, inTime_iff]
        omega

/-- After a wait, what is left is found when it would be found without it. -/
theorem max_due_of_mem_dropWhile {inbox : List Arrival} (horder : InOrder inbox)
    (hnow : now ≤ deadline) {a : Arrival} (ha : a ∈ inbox.dropWhile (inTime deadline now)) :
    max deadline a.due = max now a.due := by
  have hlate := not_inTime_of_mem_dropWhile horder ha
  rw [Bool.eq_false_iff, ne_eq, inTime_iff] at hlate
  omega

theorem dropWhile_dropWhile_of_imp {β : Type} {p q : β → Bool} (h : ∀ b, p b = true → q b = true)
    (l : List β) : (l.dropWhile p).dropWhile q = l.dropWhile q := by
  induction l with
  | nil => rfl
  | cons b l ih =>
    rw [List.dropWhile_cons]
    split
    · rename_i hb
      rw [ih, List.dropWhile_cons, if_pos (h b hb)]
    · rfl

theorem dropWhile_inTime_self (inbox : List Arrival) :
    inbox.dropWhile (inTime now now) = inbox := by
  have hnothing : inTime now now = fun _ => false := by
    funext a
    rw [Bool.eq_false_iff, ne_eq, inTime_iff]
    omega
  rw [hnothing]
  cases inbox <;> rfl

/-- Two waits that follow each other leave what one long wait leaves. -/
theorem dropWhile_inTime_dropWhile (inbox : List Arrival) (hnow : now ≤ deadline) {limit : Nat}
    (hlimit : deadline ≤ limit) :
    (inbox.dropWhile (inTime deadline now)).dropWhile (inTime limit deadline) =
      inbox.dropWhile (inTime limit now) := by
  rcases Nat.lt_or_eq_of_le hlimit with hlt | rfl
  · rw [inTime_eq_of_lt hlt (by omega : now < limit)]
    apply dropWhile_dropWhile_of_imp
    intro a ha
    rw [inTime_iff] at ha ⊢
    omega
  · exact dropWhile_inTime_self _

end World

namespace Site

variable {site : Site} {r : Retransmission} {id : Stun.TransactionId} {request : Bytes}
  {dest : Endpoint} {w w' : World} {wait : Duration} {waits : List Duration}
  {result : Except Halt (Except IoError (Option (Stun.Message × Endpoint)))}

/-! ### Running -/

/-- What an exchange comes to, by recursion on its waits. -/
def exchanged (site : Site) (id : Stun.TransactionId) (request : Bytes) (dest : Endpoint) :
    List Duration → World →
      Except Halt (Except IoError (Option (Stun.Message × Endpoint))) × World
  | [], w => (.ok (.ok none), w)
  | wait :: waits, w =>
    match site.refusal? request dest w.sent.length w.now with
    | some e => (.ok (.error e), w)
    | none =>
      let w := site.afterSending request dest w
      if site.clockEnd ≤ w.now + wait.nanos then (.error .pastClock, w)
      else
        match World.awaited id (w.now + wait.nanos) w.now w.inbox with
        | (.ok none, now, inbox) => site.exchanged id request dest waits { w with now, inbox }
        | (found, now, inbox) => (.ok found, { w with now, inbox })

theorem run_transmit (site : Site) (request : Bytes) (dest : Endpoint) (w : World) :
    ((site.socket.transmit request dest).run.run).run w =
      match site.refusal? request dest w.sent.length w.now with
      | some e => (.ok (.error e), w)
      | none => (.ok (.ok ()), site.afterSending request dest w) := by
  have hget : ((get : ExceptT IoError Simulation World).run.run).run w = (.ok (.ok w), w) := rfl
  refine (run_bind_of_ok_ok hget).trans ?_
  cases site.refusal? request dest w.sent.length w.now <;> rfl

theorem run_deadline (site : Site) (wait : Duration) (w : World) :
    ((site.socket.deadline wait).run).run w =
      if site.clockEnd ≤ w.now + wait.nanos then (.error .pastClock, w)
      else (.ok (w.now + wait.nanos), w) := by
  have hget : ((get : Simulation World).run).run w = (.ok w, w) := rfl
  refine (run_bind_of_ok hget).trans ?_
  by_cases hclock : site.clockEnd ≤ w.now + wait.nanos
  · simp only [if_pos hclock]
    rfl
  · simp only [if_neg hclock]
    rfl

theorem run_exchangeFrom (site : Site) (r : Retransmission) (id : Stun.TransactionId)
    (request : Bytes) (dest : Endpoint) (n : Nat) (wait : Duration) (w : World) :
    ((site.socket.exchangeFrom r id request dest n wait).run.run).run w =
      site.exchanged id request dest (r.waitsFrom n wait) w := by
  induction n generalizing wait w with
  | zero => rfl
  | succ n ih =>
    have htransmit := run_transmit site request dest w
    rw [Retransmission.waitsFrom, exchanged]
    cases hrefused : site.refusal? request dest w.sent.length w.now with
    | some e =>
      rw [hrefused] at htransmit
      exact Socket.run_exchangeFrom_of_refused htransmit
    | none =>
      rw [hrefused] at htransmit
      dsimp only at htransmit ⊢
      generalize site.afterSending request dest w = u at htransmit
      have hdeadline := run_deadline site wait u
      by_cases hclock : site.clockEnd ≤ u.now + wait.nanos
      · rw [if_pos hclock] at hdeadline ⊢
        exact Socket.run_exchangeFrom_of_stopped htransmit hdeadline
      · rw [if_neg hclock] at hdeadline ⊢
        have hawait := run_awaitReply site id (u.now + wait.nanos) u
        generalize World.awaited id (u.now + wait.nanos) u.now u.inbox = awaited at hawait
        obtain ⟨e | _ | reply, now, inbox⟩ := awaited
        · exact Socket.run_exchangeFrom_of_failed htransmit hdeadline hawait
        · exact (Socket.run_exchangeFrom_of_silence htransmit hdeadline hawait).trans (ih _ _)
        · exact Socket.run_exchangeFrom_of_reply htransmit hdeadline hawait

theorem run_exchange (site : Site) (r : Retransmission) (message : Stun.Message) (dest : Endpoint)
    (w : World) :
    ((site.socket.exchange r message dest).run.run).run w =
      site.exchanged message.transaction message.encode dest r.waits w :=
  run_exchangeFrom site r message.transaction message.encode dest r.transmissions r.first w

/-! ### What arrives -/

theorem afterSending_of_script_nil (hscript : w.script = []) :
    site.afterSending request dest w =
      { w with sent := ⟨w.now, site.sourceToward dest, dest, request⟩ :: w.sent } := by
  obtain ⟨now, inbox, script, sent, taken⟩ := w
  obtain rfl : script = [] := hscript
  unfold afterSending
  dsimp only
  split <;> rfl

theorem exchanged_cons_of_refused {e : IoError}
    (hrefused : site.refusal? request dest w.sent.length w.now = some e) :
    site.exchanged id request dest (wait :: waits) w = (.ok (.error e), w) := by
  rw [exchanged, hrefused]

section

variable (hscript : w.script = []) (hsent : site.refusal? request dest w.sent.length w.now = none)
include hscript hsent

theorem exchanged_cons_of_pastClock (hclock : site.clockEnd ≤ w.now + wait.nanos) :
    site.exchanged id request dest (wait :: waits) w =
      (.error .pastClock,
        { w with sent := ⟨w.now, site.sourceToward dest, dest, request⟩ :: w.sent }) := by
  rw [exchanged, hsent]
  dsimp only
  rw [afterSending_of_script_nil hscript, if_pos hclock]

variable (hclock : ¬ site.clockEnd ≤ w.now + wait.nanos) {now : Nat} {inbox : List Arrival}
include hclock

theorem exchanged_cons_of_silence
    (hawaited : World.awaited id (w.now + wait.nanos) w.now w.inbox = (.ok none, now, inbox)) :
    site.exchanged id request dest (wait :: waits) w =
      let sent := ⟨w.now, site.sourceToward dest, dest, request⟩ :: w.sent
      site.exchanged id request dest waits { w with now, inbox, sent } := by
  rw [exchanged, hsent]
  dsimp only
  rw [afterSending_of_script_nil hscript, if_neg hclock, hawaited]

theorem exchanged_cons_of_ended {ending : Except IoError (Stun.Message × Endpoint)}
    (hawaited :
      World.awaited id (w.now + wait.nanos) w.now w.inbox = (ending.map some, now, inbox)) :
    site.exchanged id request dest (wait :: waits) w =
      let sent := ⟨w.now, site.sourceToward dest, dest, request⟩ :: w.sent
      (.ok (ending.map some), { w with now, inbox, sent }) := by
  rw [exchanged, hsent]
  dsimp only
  rw [afterSending_of_script_nil hscript, if_neg hclock, hawaited]
  cases ending <;> rfl

end

/-- A wait ends in silence, or in a way that ends its exchange. -/
theorem eq_ok_none_or_eq_map_some {α : Type} (found : Except IoError (Option α)) :
    found = .ok none ∨ ∃ ending : Except IoError α, found = ending.map some := by
  rcases found with e | _ | x
  · exact .inr ⟨.error e, rfl⟩
  · exact .inl rfl
  · exact .inr ⟨.ok x, rfl⟩

/-- An exchange depends on the events that end waits alone: what else arrives, and when, changes
neither its end nor its transmissions. -/
theorem exchanged_endings (hscript : w.script = []) (horder : InOrder w.inbox) :
    site.exchanged id request dest waits { w with inbox := endings id w.inbox } =
      let (result, w') := site.exchanged id request dest waits w
      (result, { w' with inbox := endings id w'.inbox }) := by
  induction waits generalizing w with
  | nil => rfl
  | cons wait waits ih =>
    let v : World := { w with inbox := endings id w.inbox }
    cases hsend : site.refusal? request dest w.sent.length w.now with
    | some e => rw [exchanged_cons_of_refused hsend, exchanged_cons_of_refused (w := v) hsend]
    | none =>
      by_cases hclock : site.clockEnd ≤ w.now + wait.nanos
      · rw [exchanged_cons_of_pastClock hscript hsend hclock,
          exchanged_cons_of_pastClock (w := v) hscript hsend hclock]
      · have hquiet : World.awaited id (v.now + wait.nanos) v.now v.inbox = _ :=
          World.awaited_endings horder
        rcases hawaited : World.awaited id (w.now + wait.nanos) w.now w.inbox with
          ⟨found, now, inbox⟩
        rw [hawaited] at hquiet
        rcases eq_ok_none_or_eq_map_some found with rfl | ⟨ending, rfl⟩
        · rw [exchanged_cons_of_silence hscript hsend hclock hawaited,
            exchanged_cons_of_silence (w := v) hscript hsend hclock hquiet]
          exact ih (w := { w with now, inbox, sent := _ }) hscript
            (World.inOrder_of_awaited horder hawaited)
        · rw [exchanged_cons_of_ended hscript hsend hclock hawaited,
            exchanged_cons_of_ended (w := v) hscript hsend hclock hquiet]

theorem exchanged_of_endings_eq (hscript : w.script = []) (horder : InOrder w.inbox)
    {noisy : List Arrival} (hnoisy : InOrder noisy) (hsame : endings id noisy = endings id w.inbox) :
    let ended (schedule : List Arrival) :=
      site.exchanged id request dest waits { w with inbox := schedule }
    (ended noisy).1 = (ended w.inbox).1 ∧ (ended noisy).2.now = (ended w.inbox).2.now ∧
      (ended noisy).2.sent = (ended w.inbox).2.sent := by
  intro ended
  have hquiet : ended (endings id w.inbox) = _ := exchanged_endings hscript horder
  have hloud : ended (endings id noisy) = _ :=
    exchanged_endings (w := { w with inbox := noisy }) hscript hnoisy
  rw [hsame] at hloud
  obtain ⟨hresult, hworld⟩ := Prod.mk.inj (hloud.symm.trans hquiet)
  obtain ⟨hnow, -, -, hsent, -⟩ := World.mk.inj hworld
  exact ⟨hresult, hnow, hsent⟩

/-! ### The ways an exchange can end -/

/-- The first transmissions of an exchange that starts at a time. -/
def transmissions (site : Site) (request : Bytes) (dest : Endpoint) (waits : List Duration)
    (start count : Nat) : List Transmission :=
  (List.range count).map fun k => ⟨start + elapsed waits k, site.sourceToward dest, dest, request⟩

theorem transmissions_cons_succ (start count : Nat) :
    site.transmissions request dest (wait :: waits) start (count + 1) =
      ⟨start, site.sourceToward dest, dest, request⟩ ::
        site.transmissions request dest waits (start + wait.nanos) count := by
  simp [transmissions, List.range_succ_eq_map, Function.comp_def, Nat.add_assoc]

/-- The world at a later time, after so many transmissions. -/
def later (site : Site) (request : Bytes) (dest : Endpoint) (waits : List Duration) (w : World)
    (count now : Nat) (inbox : List Arrival) : World :=
  { w with now, inbox, sent := (site.transmissions request dest waits w.now count).reverse ++ w.sent }

theorem later_one (now : Nat) (inbox : List Arrival) :
    site.later request dest (wait :: waits) w 1 now inbox =
      { w with now, inbox, sent := ⟨w.now, site.sourceToward dest, dest, request⟩ :: w.sent } := by
  simp [later, transmissions]

theorem later_later (now : Nat) (inbox between : List Arrival) (count : Nat) :
    site.later request dest waits
        (site.later request dest [wait] w 1 (w.now + wait.nanos) between) count now inbox =
      site.later request dest (wait :: waits) w (count + 1) now inbox := by
  simp only [later, transmissions_cons_succ, List.reverse_cons, List.append_assoc]
  rfl

/-- Whether and why an exchange finds its request refused at the start of a wait, where it was
taken at the starts of those before. -/
def refusalAt (site : Site) (request : Bytes) (dest : Endpoint) (waits : List Duration) (w : World)
    (k : Nat) : Option IoError :=
  site.refusal? request dest (w.sent.length + k) (w.now + elapsed waits k)

theorem refusalAt_later (inbox : List Arrival) (k : Nat) :
    site.refusalAt request dest waits
        (site.later request dest [wait] w 1 (w.now + wait.nanos) inbox) k =
      site.refusalAt request dest (wait :: waits) w (k + 1) := by
  have hcount : w.sent.length + 1 + k = w.sent.length + (k + 1) := by omega
  simp only [refusalAt, later, transmissions, List.range_one, List.map_singleton,
    List.reverse_singleton, List.singleton_append, List.length_cons,
    Retransmission.elapsed_cons_succ, Nat.add_assoc, hcount]

/-- An exchange that goes on to the start of a wait: nothing has ended the waits before, which the
clock could tell, and the request was taken at the start of each. -/
structure Pending (site : Site) (id : Stun.TransactionId) (request : Bytes) (dest : Endpoint)
    (waits : List Duration) (w : World) (k : Nat) : Prop where
  taken : ∀ i < k, site.refusalAt request dest waits w i = none
  told : ∀ i < k, w.now + elapsed waits (i + 1) < site.clockEnd
  quiet : ∀ a ∈ w.inbox, World.inTime (w.now + elapsed waits k) w.now a → a.ending? id = none

/-- What is left on its way at the start of a wait. -/
def leftAt (waits : List Duration) (w : World) (k : Nat) : List Arrival :=
  w.inbox.dropWhile (World.inTime (w.now + elapsed waits k) w.now)

/-- How an exchange can end that starts in a world where listeners stay silent. -/
inductive Exchanged (site : Site) (id : Stun.TransactionId) (request : Bytes) (dest : Endpoint)
    (waits : List Duration) (w : World) :
    Except Halt (Except IoError (Option (Stun.Message × Endpoint))) → World → Prop
  /-- The request is refused. -/
  | refused {k : Nat} {e : IoError} (pending : Pending site id request dest waits w k)
      (hk : k < waits.length) (hrefused : site.refusalAt request dest waits w k = some e) :
    Exchanged site id request dest waits w (.ok (.error e))
      (site.later request dest waits w k (w.now + elapsed waits k) (leftAt waits w k))
  /-- The request is taken, but the clock cannot tell when the wait for a reply is over. -/
  | stopped {k : Nat} (pending : Pending site id request dest waits w k) (hk : k < waits.length)
      (hsent : site.refusalAt request dest waits w k = none)
      (hclock : site.clockEnd ≤ w.now + elapsed waits (k + 1)) :
    Exchanged site id request dest waits w (.error .pastClock)
      (site.later request dest waits w (k + 1) (w.now + elapsed waits k) (leftAt waits w k))
  /-- A reply is received, or receiving fails. -/
  | ended {before after : List Arrival} {a : Arrival}
      {ending : Except IoError (Stun.Message × Endpoint)} {j : Nat}
      (pending : Pending site id request dest waits w j) (hj : j < waits.length)
      (hsent : site.refusalAt request dest waits w j = none)
      (hclock : w.now + elapsed waits (j + 1) < site.clockEnd)
      (hinbox : w.inbox = before ++ a :: after) (hbefore : ∀ b ∈ before, b.ending? id = none)
      (ha : a.ending? id = some ending) (hstart : w.now + elapsed waits j ≤ max w.now a.due)
      (hend : max w.now a.due < w.now + elapsed waits (j + 1)) :
    Exchanged site id request dest waits w (.ok (ending.map some))
      (site.later request dest waits w (j + 1) (max w.now a.due) after)
  /-- The waits are over. -/
  | silent (pending : Pending site id request dest waits w waits.length) :
    Exchanged site id request dest waits w (.ok (.ok none))
      (site.later request dest waits w waits.length (w.now + elapsed waits waits.length)
        (leftAt waits w waits.length))

theorem pending_zero : Pending site id request dest waits w 0 where
  taken i hi := absurd hi (Nat.not_lt_zero i)
  told i hi := absurd hi (Nat.not_lt_zero i)
  quiet _ _ htime := absurd (World.inTime_iff.mp htime) (Nat.not_lt.mpr (Nat.le_max_left _ _))

theorem leftAt_zero : leftAt waits w 0 = w.inbox := World.dropWhile_inTime_self w.inbox

theorem later_leftAt_zero :
    site.later request dest waits w 0 (w.now + elapsed waits 0) (leftAt waits w 0) = w := by
  rw [leftAt_zero]
  rfl

theorem leftAt_later (k : Nat) :
    leftAt waits (site.later request dest [wait] w 1 (w.now + wait.nanos) (leftAt [wait] w 1)) k =
      leftAt (wait :: waits) w (k + 1) := by
  change (w.inbox.dropWhile (World.inTime (w.now + wait.nanos) w.now)).dropWhile
      (World.inTime (w.now + wait.nanos + elapsed waits k) (w.now + wait.nanos)) =
    w.inbox.dropWhile (World.inTime (w.now + (wait.nanos + elapsed waits k)) w.now)
  rw [← Nat.add_assoc]
  exact World.dropWhile_inTime_dropWhile w.inbox (Nat.le_add_right _ _) (Nat.le_add_right _ _)

section

variable (horder : InOrder w.inbox)
include horder

/-- What is left after a first wait is found when it would be found without it. -/
theorem max_due_of_mem_leftAt_one {a : Arrival} (ha : a ∈ leftAt [wait] w 1) :
    max (w.now + wait.nanos) a.due = max w.now a.due :=
  World.max_due_of_mem_dropWhile horder (Nat.le_add_right _ _) ha

section

variable (hsent : site.refusalAt request dest (wait :: waits) w 0 = none)
  (hclock : w.now + wait.nanos < site.clockEnd)
  (hfirst : ∀ a ∈ w.inbox, World.inTime (w.now + wait.nanos) w.now a → a.ending? id = none)
include hsent hclock hfirst

theorem Pending.cons {k : Nat}
    (h : Pending site id request dest waits
      (site.later request dest [wait] w 1 (w.now + wait.nanos) (leftAt [wait] w 1)) k) :
    Pending site id request dest (wait :: waits) w (k + 1) := by
  refine ⟨?_, ?_, ?_⟩
  · intro i hi
    cases i with
    | zero => exact hsent
    | succ i =>
      rw [← refusalAt_later]
      exact h.taken i (Nat.lt_of_succ_lt_succ hi)
  · intro i hi
    cases i with
    | zero => exact hclock
    | succ i =>
      rw [add_elapsed_cons_succ]
      exact h.told i (Nat.lt_of_succ_lt_succ hi)
  · intro a ha htime
    by_cases hearly : World.inTime (w.now + wait.nanos) w.now a = true
    · exact hfirst a ha hearly
    · have hleft : a ∈ leftAt [wait] w 1 := by
        rw [← List.takeWhile_append_dropWhile (p := World.inTime (w.now + wait.nanos) w.now)
          (l := w.inbox), List.mem_append] at ha
        rcases ha with ha | ha
        · exact absurd (List.all_eq_true.mp List.all_takeWhile a ha) hearly
        · exact ha
      refine h.quiet a hleft (World.inTime_iff.mpr ?_)
      rw [World.inTime_iff, add_elapsed_cons_succ,
        ← max_due_of_mem_leftAt_one horder hleft] at htime
      exact htime

/-- An exchange that goes on after a first wait. -/
theorem Exchanged.cons
    (h : Exchanged site id request dest waits
      (site.later request dest [wait] w 1 (w.now + wait.nanos) (leftAt [wait] w 1)) result w') :
    Exchanged site id request dest (wait :: waits) w result w' := by
  cases h with
  | @refused k e pending hk hrefused =>
    rw [later_later, leftAt_later]
    rw [refusalAt_later] at hrefused
    have hend := Exchanged.refused (pending.cons horder hsent hclock hfirst)
      (Nat.succ_lt_succ hk) hrefused
    rw [add_elapsed_cons_succ] at hend
    exact hend
  | @stopped k pending hk htaken hlimit =>
    rw [later_later, leftAt_later]
    rw [refusalAt_later] at htaken
    have hend := Exchanged.stopped (pending.cons horder hsent hclock hfirst)
      (Nat.succ_lt_succ hk) htaken (add_elapsed_cons_succ _ _ _ (k + 1) ▸ hlimit)
    rw [add_elapsed_cons_succ] at hend
    exact hend
  | @ended before after a ending j pending hj htaken hlimit hinbox hbefore ha hstart hend =>
    have hinbox : leftAt [wait] w 1 = before ++ a :: after := hinbox
    have hmax : max (w.now + wait.nanos) a.due = max w.now a.due :=
      max_due_of_mem_leftAt_one horder (by simp [hinbox])
    have hlimit : w.now + wait.nanos + elapsed waits (j + 1) < site.clockEnd := hlimit
    have hstart : w.now + wait.nanos + elapsed waits j ≤ max (w.now + wait.nanos) a.due := hstart
    have hend : max (w.now + wait.nanos) a.due < w.now + wait.nanos + elapsed waits (j + 1) := hend
    have hsplit : w.inbox =
        (w.inbox.takeWhile (World.inTime (w.now + wait.nanos) w.now) ++ before) ++ a :: after := by
      rw [List.append_assoc, ← hinbox]
      exact List.takeWhile_append_dropWhile.symm
    rw [later_later]
    change Exchanged site id request dest (wait :: waits) w _
      (site.later request dest (wait :: waits) w (j + 1 + 1) (max (w.now + wait.nanos) a.due) after)
    rw [hmax] at hstart hend ⊢
    rw [← add_elapsed_cons_succ] at hlimit hstart hend
    rw [refusalAt_later] at htaken
    refine .ended (pending.cons horder hsent hclock hfirst) (Nat.succ_lt_succ hj) htaken hlimit
      hsplit ?_ ha hstart hend
    intro b hb
    rcases List.mem_append.mp hb with hb | hb
    · exact hfirst b ((List.takeWhile_sublist _).subset hb)
        (List.all_eq_true.mp List.all_takeWhile b hb)
    · exact hbefore b hb
  | silent pending =>
    rw [later_later, leftAt_later]
    have hend := Exchanged.silent (pending.cons horder hsent hclock hfirst)
    rw [List.length_cons, add_elapsed_cons_succ] at hend
    exact hend

end

end

/-- Every exchange ends in one of these ways. -/
theorem exchanged_cases (hscript : w.script = []) (horder : InOrder w.inbox) :
    Exchanged site id request dest waits w (site.exchanged id request dest waits w).1
      (site.exchanged id request dest waits w).2 := by
  induction waits generalizing w with
  | nil =>
    have hend : Exchanged site id request dest [] w (.ok (.ok none)) _ := .silent pending_zero
    rw [List.length_nil, later_leftAt_zero] at hend
    exact hend
  | cons wait waits ih =>
    cases hsend : site.refusal? request dest w.sent.length w.now with
    | some e =>
      have hend : Exchanged site id request dest (wait :: waits) w (.ok (.error e)) _ :=
        .refused pending_zero (Nat.succ_pos _) hsend
      rw [later_leftAt_zero] at hend
      rw [exchanged_cons_of_refused hsend]
      exact hend
    | none =>
      by_cases hclock : site.clockEnd ≤ w.now + wait.nanos
      · have hend : Exchanged site id request dest (wait :: waits) w (.error .pastClock) _ :=
          .stopped pending_zero (Nat.succ_pos _) hsend hclock
        rw [leftAt_zero, later_one] at hend
        rw [exchanged_cons_of_pastClock hscript hsend hclock]
        exact hend
      · rcases World.exists_ending_or_none id horder (w.now + wait.nanos) w.now with
          ⟨before, a, after, ending, hinbox, hbefore, ha, htime⟩ | hnone
        · have hend : Exchanged site id request dest (wait :: waits) w (.ok (ending.map some)) _ :=
            .ended pending_zero (Nat.succ_pos _) hsend (Nat.lt_of_not_le hclock) hinbox hbefore ha
              (Nat.le_max_left _ _) htime
          have hawaited := World.awaited_of_ending (hinbox ▸ horder) hbefore ha htime
          rw [← hinbox] at hawaited
          rw [later_one] at hend
          rw [exchanged_cons_of_ended hscript hsend hclock hawaited]
          exact hend
        · have hawaited := World.awaited_of_none (Nat.le_add_right _ wait.nanos) hnone
          rw [exchanged_cons_of_silence hscript hsend hclock hawaited]
          refine Exchanged.cons horder hsend (Nat.lt_of_not_le hclock) hnone ?_
          rw [later_one]
          exact ih hscript (horder.sublist (List.dropWhile_sublist _))

/-! ### Which of the ways it is -/

section

variable (h : Exchanged site id request dest waits w result w')
  (hsend : ∀ k < waits.length, site.refusalAt request dest waits w k = none)
include h hsend

end

theorem refusal?_eq_none {count time : Nat} (hrefuses : site.refuses = fun _ _ => none)
    (hmachine : site.machine.sendError? site.bound dest request.length = none) :
    site.refusal? request dest count time = none := by
  rw [refusal?, hmachine, hrefuses]

end Site

end NatBehavior
