import NatBehavior.Network.World
import NatBehavior.Proofs.Probe.Exchange

/-! One wait for a reply on the virtual clock, against what arrives by a schedule. It is ended by the
first event that is a reply or a failure and comes before the deadline. What else arrives has no
influence: a schedule can be cut down to the events that end waits. -/
namespace NatBehavior

/-- A datagram from a source that holds a message of a transaction in what is looked at of it. -/
structure Arrival.Bears (a : Arrival) (id : Stun.TransactionId) (m : Stun.Message)
    (source : Endpoint) : Prop where
  received : ∃ payload, a.event = .ok ⟨payload, source⟩ ∧
    Stun.Message.decode (payload.take 1024) = .ok m
  transaction : m.transaction = id

/-- A failure to receive. -/
def Arrival.Fails (a : Arrival) (e : IoError) : Prop := a.event = .error e

/-- How an event ends the wait for a reply: a failure does, and so does a reply. -/
def Arrival.ending? (id : Stun.TransactionId) (a : Arrival) :
    Option (Except IoError (Stun.Message × Endpoint)) :=
  match a.event with
  | .error e => some (.error e)
  | .ok datagram => (replyTo? id datagram.payload).map fun m => .ok (m, datagram.source)

theorem replyTo?_eq_some_iff {id : Stun.TransactionId} {payload : Bytes} {m : Stun.Message} :
    replyTo? id payload = some m ↔
      Stun.Message.decode (payload.take 1024) = .ok m ∧ m.transaction = id := by
  have hlimit : receiveLimit = 1024 := rfl
  rw [replyTo?, hlimit]
  cases Stun.Message.decode (payload.take 1024) with
  | error e => simp
  | ok read =>
    dsimp only
    rw [Option.ite_none_right_eq_some, Except.ok.injEq]
    constructor
    · rintro ⟨hid, hread⟩
      obtain rfl := Option.some.inj hread
      exact ⟨rfl, hid⟩
    · rintro ⟨rfl, hid⟩
      exact ⟨hid, rfl⟩

namespace Arrival

variable {id : Stun.TransactionId} {a : Arrival}

theorem ending?_eq_error_iff {e : IoError} : a.ending? id = some (.error e) ↔ a.Fails e := by
  unfold ending? Fails
  cases a.event with
  | error e' => simp
  | ok datagram => cases replyTo? id datagram.payload <;> simp

theorem ending?_of_ok {datagram : Datagram} (h : a.event = .ok datagram) :
    a.ending? id =
      (replyTo? id datagram.payload).map fun m => .ok (m, datagram.source) := by
  rw [ending?, h]

theorem ending?_eq_ok_iff {m : Stun.Message} {source : Endpoint} :
    a.ending? id = some (.ok (m, source)) ↔ a.Bears id m source := by
  constructor
  · intro h
    cases hevent : a.event with
    | error e =>
      rw [ending?, hevent] at h
      cases h
    | ok datagram =>
      rw [ending?_of_ok hevent] at h
      obtain ⟨m', hreply, hsame⟩ := Option.map_eq_some_iff.mp h
      cases hsame
      obtain ⟨hread, hid⟩ := replyTo?_eq_some_iff.mp hreply
      exact ⟨⟨datagram.payload, hevent, hread⟩, hid⟩
  · rintro ⟨⟨payload, hevent, hread⟩, hid⟩
    rw [ending?_of_ok hevent, replyTo?_eq_some_iff.mpr ⟨hread, hid⟩]
    rfl

end Arrival

/-- The events of a schedule that end a wait for a reply. -/
def endings (id : Stun.TransactionId) (schedule : List Arrival) : List Arrival :=
  schedule.filter fun a => (a.ending? id).isSome

section

variable {id : Stun.TransactionId} {schedule : List Arrival} {a : Arrival}

theorem endings_cons_of_none (h : a.ending? id = none) :
    endings id (a :: schedule) = endings id schedule :=
  List.filter_cons_of_neg (by simp [h])

theorem endings_cons_of_some {ending : Except IoError (Stun.Message × Endpoint)}
    (h : a.ending? id = some ending) : endings id (a :: schedule) = a :: endings id schedule :=
  List.filter_cons_of_pos (by simp [h])

end

/-- Events listed in order of arrival. -/
abbrev InOrder (schedule : List Arrival) : Prop := schedule.Pairwise (·.due ≤ ·.due)

namespace World

variable {id : Stun.TransactionId} {deadline now : Nat} {inbox : List Arrival}

/-- What a wait for a reply comes to, the time when it ends, and what is then left on its way. -/
def awaited (id : Stun.TransactionId) (deadline now : Nat) :
    List Arrival → Except IoError (Option (Stun.Message × Endpoint)) × Nat × List Arrival
  | [] => (.ok none, deadline, [])
  | a :: inbox =>
    if max now a.due < deadline then
      match a.ending? id with
      | some ending => (ending.map some, max now a.due, inbox)
      | none => awaited id deadline (max now a.due) inbox
    else (.ok none, deadline, a :: inbox)

/-- An event that is found before the deadline, at once where it is due already. -/
def inTime (deadline now : Nat) (a : Arrival) : Bool := max now a.due < deadline

theorem inTime_iff {a : Arrival} : inTime deadline now a = true ↔ max now a.due < deadline :=
  decide_eq_true_iff

/-- Before the deadline it does not matter what time it is. -/
theorem inTime_eq_of_lt {later : Nat} (hlater : later < deadline) (hnow : now < deadline) :
    inTime deadline later = inTime deadline now := by
  funext a
  rw [Bool.eq_iff_iff, inTime_iff, inTime_iff]
  omega

theorem awaited_cons_of_late {a : Arrival} (h : ¬ max now a.due < deadline) :
    awaited id deadline now (a :: inbox) = (.ok none, deadline, a :: inbox) := if_neg h

theorem awaited_cons_of_none {a : Arrival} (htime : max now a.due < deadline)
    (ha : a.ending? id = none) :
    awaited id deadline now (a :: inbox) = awaited id deadline (max now a.due) inbox := by
  rw [awaited, if_pos htime, ha]

theorem awaited_cons_of_some {a : Arrival} {ending : Except IoError (Stun.Message × Endpoint)}
    (htime : max now a.due < deadline) (ha : a.ending? id = some ending) :
    awaited id deadline now (a :: inbox) = (ending.map some, max now a.due, inbox) := by
  rw [awaited, if_pos htime, ha]

/-- A wait may as well begin when the first event is due. -/
theorem awaited_max {time : Nat} (h : ∀ a ∈ inbox, time ≤ a.due) :
    awaited id deadline (max now time) inbox = awaited id deadline now inbox := by
  cases inbox with
  | nil => rfl
  | cons a inbox =>
    have hsame : max (max now time) a.due = max now a.due := by
      have hdue := h a List.mem_cons_self
      omega
    rw [awaited, awaited, hsame]

theorem awaited_of_late (h : ∀ a ∈ inbox, ¬ max now a.due < deadline) :
    awaited id deadline now inbox = (.ok none, deadline, inbox) := by
  cases inbox with
  | nil => rfl
  | cons a inbox => exact awaited_cons_of_late (h a List.mem_cons_self)

theorem awaited_of_ending {before after : List Arrival} {a : Arrival}
    {ending : Except IoError (Stun.Message × Endpoint)} (horder : InOrder (before ++ a :: after))
    (hbefore : ∀ b ∈ before, b.ending? id = none) (ha : a.ending? id = some ending)
    (htime : max now a.due < deadline) :
    awaited id deadline now (before ++ a :: after) = (ending.map some, max now a.due, after) := by
  induction before generalizing now with
  | nil => exact awaited_cons_of_some htime ha
  | cons b before ih =>
    rw [List.cons_append, InOrder, List.pairwise_cons] at horder
    rw [List.forall_mem_cons] at hbefore
    have hdue : b.due ≤ a.due := horder.1 a (by simp)
    have hlater : max (max now b.due) a.due = max now a.due := by omega
    rw [List.cons_append, awaited_cons_of_none (by omega) hbefore.1,
      ih horder.2 hbefore.2 (by omega), hlater]

theorem awaited_of_none (hnow : now ≤ deadline)
    (h : ∀ a ∈ inbox, inTime deadline now a → a.ending? id = none) :
    awaited id deadline now inbox =
      (.ok none, deadline, inbox.dropWhile (inTime deadline now)) := by
  induction inbox generalizing now with
  | nil => rfl
  | cons a inbox ih =>
    rw [List.forall_mem_cons] at h
    rw [List.dropWhile_cons]
    by_cases htime : inTime deadline now a = true
    · have hlt := inTime_iff.mp htime
      have hsame := inTime_eq_of_lt hlt (by omega : now < deadline)
      rw [if_pos htime, awaited_cons_of_none hlt (h.1 htime), ih (Nat.le_of_lt hlt) (hsame ▸ h.2),
        hsame]
    · rw [if_neg htime, awaited_cons_of_late fun hlt => htime (inTime_iff.mpr hlt)]

/-- In order of arrival, the first event in time that ends a wait comes behind no other. -/
theorem exists_ending_or_none (id : Stun.TransactionId) {inbox : List Arrival}
    (horder : InOrder inbox) (deadline now : Nat) :
    (∃ before a after ending, inbox = before ++ a :: after ∧
      (∀ b ∈ before, b.ending? id = none) ∧ a.ending? id = some ending ∧
      max now a.due < deadline) ∨
    ∀ a ∈ inbox, inTime deadline now a → a.ending? id = none := by
  cases hfind : inbox.find? (fun a => (a.ending? id).isSome && inTime deadline now a) with
  | none =>
    right
    intro a ha htime
    have hnot := List.find?_eq_none.mp hfind a ha
    rw [htime, Bool.and_true] at hnot
    exact Option.not_isSome_iff_eq_none.mp hnot
  | some a =>
    left
    obtain ⟨hboth, before, after, rfl, hbefore⟩ := List.find?_eq_some_iff_append.mp hfind
    obtain ⟨hsome, htime⟩ := (Bool.and_eq_true _ _).mp hboth
    obtain ⟨ending, hending⟩ := Option.isSome_iff_exists.mp hsome
    rw [inTime_iff] at htime
    refine ⟨before, a, after, ending, rfl, ?_, hending, htime⟩
    intro b hb
    have hdue : b.due ≤ a.due := (List.pairwise_append.mp horder).2.2 b hb a List.mem_cons_self
    have hearly : inTime deadline now b = true := inTime_iff.mpr (by omega)
    have hnot := hbefore b hb
    rw [hearly, Bool.and_true, Bool.not_eq_true'] at hnot
    exact Option.not_isSome_iff_eq_none.mp (Bool.eq_false_iff.mp hnot)

/-- A wait brings nothing on its way. -/
theorem awaited_suffix (id : Stun.TransactionId) (deadline now : Nat) (inbox : List Arrival) :
    (awaited id deadline now inbox).2.2 <:+ inbox := by
  fun_induction awaited id deadline now inbox with
  | case1 => exact List.suffix_rfl
  | case2 => exact List.suffix_cons _ _
  | case3 _ a inbox _ _ ih => exact ih.trans (List.suffix_cons a inbox)
  | case4 => exact List.suffix_rfl

theorem inOrder_of_awaited (horder : InOrder inbox)
    {found : Except IoError (Option (Stun.Message × Endpoint))} {finish : Nat} {rest : List Arrival}
    (hawaited : awaited id deadline now inbox = (found, finish, rest)) : InOrder rest := by
  have hsuffix := awaited_suffix id deadline now inbox
  rw [hawaited] at hsuffix
  exact horder.sublist hsuffix.sublist

/-- What ends no wait can as well stay away. -/
theorem awaited_endings (horder : InOrder inbox) :
    awaited id deadline now (endings id inbox) =
      ((awaited id deadline now inbox).1, (awaited id deadline now inbox).2.1,
        endings id (awaited id deadline now inbox).2.2) := by
  induction inbox generalizing now with
  | nil => rfl
  | cons a inbox ih =>
    obtain ⟨hdue, hrest⟩ := List.pairwise_cons.mp horder
    by_cases htime : max now a.due < deadline
    · cases ha : a.ending? id with
      | none =>
        rw [endings_cons_of_none ha, awaited_cons_of_none htime ha, ← ih hrest, awaited_max]
        exact fun b hb => hdue b (List.mem_filter.mp hb).1
      | some ending => rw [endings_cons_of_some ha, awaited_cons_of_some htime ha,
          awaited_cons_of_some htime ha]
    · rw [awaited_cons_of_late htime, awaited_of_late]
      intro b hb
      rcases List.mem_cons.mp (List.mem_filter.mp hb).1 with rfl | hb
      · exact htime
      · have hlater := hdue b hb
        omega

end World

/-! ### Running -/

namespace Site

theorem run_receive (site : Site) (deadline : Nat) (w : World) :
    ((site.socket.receive deadline).run.run).run w =
      match World.next deadline w with
      | (none, w') => (.ok (.ok none), w')
      | (some (.ok datagram), w') => (.ok (.ok (some datagram)), w')
      | (some (.error e), w') => (.ok (.error e), w') := by
  have hnext : ((modifyGet (World.next deadline) : ExceptT IoError Simulation _).run.run).run w =
      (.ok (.ok (World.next deadline w).1), (World.next deadline w).2) := rfl
  refine (run_bind_of_ok_ok hnext).trans ?_
  rcases World.next deadline w with ⟨_ | (e | datagram), w'⟩ <;> rfl

/-- The wait for a reply takes one event after another, until one ends it. -/
theorem run_awaitReply (site : Site) (id : Stun.TransactionId) (deadline : Nat) (w : World) :
    ((site.socket.awaitReply id deadline).run.run).run w =
      let (found, now, inbox) := World.awaited id deadline w.now w.inbox
      (.ok found, { w with now, inbox }) := by
  obtain ⟨now, inbox, script, sent, taken⟩ := w
  dsimp only
  induction inbox generalizing now with
  | nil => exact Socket.run_awaitReply_of_none (run_receive site deadline _)
  | cons a inbox ih =>
    have hreceive := run_receive site deadline ⟨now, a :: inbox, script, sent, taken⟩
    rw [World.next] at hreceive
    by_cases htime : max now a.due < deadline
    · dsimp only at hreceive
      rw [if_pos htime] at hreceive
      cases hevent : a.event with
      | error e =>
        have hending : a.ending? id = some (.error e) := Arrival.ending?_eq_error_iff.mpr hevent
        rw [hevent] at hreceive
        rw [World.awaited_cons_of_some htime hending]
        exact Socket.run_awaitReply_of_error hreceive
      | ok datagram =>
        rw [hevent] at hreceive
        rw [Socket.run_awaitReply_of_some hreceive]
        cases hreply : replyTo? id datagram.payload with
        | none =>
          have hending : a.ending? id = none := by
            rw [Arrival.ending?_of_ok hevent, hreply]
            rfl
          rw [World.awaited_cons_of_none htime hending]
          exact ih _
        | some m =>
          have hending : a.ending? id = some (.ok (m, datagram.source)) := by
            rw [Arrival.ending?_of_ok hevent, hreply]
            rfl
          rw [World.awaited_cons_of_some htime hending]
          rfl
    · dsimp only at hreceive
      rw [if_neg htime] at hreceive
      rw [World.awaited_cons_of_late htime]
      exact Socket.run_awaitReply_of_none hreceive

end Site

end NatBehavior
