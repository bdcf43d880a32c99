import NatBehavior.Probe.Exchange

/-! Work on a state that something may stop, and the wait for a reply as such work: one round of its
loop takes one datagram. -/
namespace NatBehavior

/-- Work on a state, which something may stop. -/
abbrev Stoppable (ε σ : Type) := ExceptT ε (StateM σ)

section

variable {ε σ α β : Type} {x : Stoppable ε σ α} {f : α → Stoppable ε σ β} {s s' : σ}

theorem run_bind_of_ok {a : α} (h : (x.run).run s = (.ok a, s')) :
    ((x >>= f).run).run s = ((f a).run).run s' := by
  rw [ExceptT.run_bind, StateT.run_bind, h]
  rfl

theorem run_bind_of_error {e : ε} (h : (x.run).run s = (.error e, s')) :
    ((x >>= f).run).run s = (.error e, s') := by
  rw [ExceptT.run_bind, StateT.run_bind, h]
  rfl

end

section

variable {δ ε σ α β : Type} {x : ExceptT δ (Stoppable ε σ) α} {f : α → ExceptT δ (Stoppable ε σ) β}
  {s s' : σ}

theorem run_bind_of_ok_ok {a : α} (h : (x.run.run).run s = (.ok (.ok a), s')) :
    ((x >>= f).run.run).run s = ((f a).run.run).run s' := by
  rw [ExceptT.run_bind, run_bind_of_ok h]

theorem run_bind_of_ok_error {e : δ} (h : (x.run.run).run s = (.ok (.error e), s')) :
    ((x >>= f).run.run).run s = (.ok (.error e), s') := by
  rw [ExceptT.run_bind, run_bind_of_ok h]
  rfl

theorem run_lift_of_ok {y : Stoppable ε σ α} {a : α} (h : (y.run).run s = (.ok a, s')) :
    ((liftM y : ExceptT δ (Stoppable ε σ) α).run.run).run s = (.ok (.ok a), s') :=
  run_bind_of_ok h

theorem run_lift_of_error {y : Stoppable ε σ α} {e : ε} (h : (y.run).run s = (.error e, s')) :
    ((liftM y : ExceptT δ (Stoppable ε σ) α).run.run).run s = (.error e, s') :=
  run_bind_of_error h

theorem run_bind_of_stopped {e : ε} (h : (x.run.run).run s = (.error e, s')) :
    ((x >>= f).run.run).run s = (.error e, s') := by
  rw [ExceptT.run_bind, run_bind_of_error h]

end

namespace Socket

variable {ε σ : Type} {socket : Socket (Stoppable ε σ)} {id : Stun.TransactionId} {deadline : Nat}

section

variable [Nonempty σ]

/-- One round of the loop. -/
theorem awaitReply_eq :
    socket.awaitReply id deadline = do
      match ← socket.takeReply id deadline with
      | .inl _ => socket.awaitReply id deadline
      | .inr found => return found := by
  conv =>
    lhs
    rw [awaitReply, repeatM_eq_of_monadTail, repeatM.body]
  refine bind_congr fun round => ?_
  cases round <;> rfl

variable {s s' : σ}

theorem run_awaitReply_of_none
    (h : ((socket.receive deadline).run.run).run s = (.ok (.ok none), s')) :
    ((socket.awaitReply id deadline).run.run).run s = (.ok (.ok none), s') := by
  have htake : ((socket.takeReply id deadline).run.run).run s = (.ok (.ok (.inr none)), s') := by
    rw [takeReply, run_bind_of_ok_ok h]
    rfl
  rw [awaitReply_eq, run_bind_of_ok_ok htake]
  rfl

theorem run_awaitReply_of_error {e : IoError}
    (h : ((socket.receive deadline).run.run).run s = (.ok (.error e), s')) :
    ((socket.awaitReply id deadline).run.run).run s = (.ok (.error e), s') := by
  have htake : ((socket.takeReply id deadline).run.run).run s = (.ok (.error e), s') := by
    rw [takeReply, run_bind_of_ok_error h]
  rw [awaitReply_eq, run_bind_of_ok_error htake]

theorem run_awaitReply_of_some {datagram : Datagram}
    (h : ((socket.receive deadline).run.run).run s = (.ok (.ok (some datagram)), s')) :
    ((socket.awaitReply id deadline).run.run).run s =
      match replyTo? id datagram.payload with
      | some m => (.ok (.ok (some (m, datagram.source))), s')
      | none => ((socket.awaitReply id deadline).run.run).run s' := by
  cases hreply : replyTo? id datagram.payload with
  | none =>
    have htake : ((socket.takeReply id deadline).run.run).run s = (.ok (.ok (.inl ())), s') := by
      rw [takeReply, run_bind_of_ok_ok h]
      dsimp only
      rw [hreply]
      rfl
    conv =>
      lhs
      rw [awaitReply_eq, run_bind_of_ok_ok htake]
  | some m =>
    have htake : ((socket.takeReply id deadline).run.run).run s =
        (.ok (.ok (.inr (some (m, datagram.source)))), s') := by
      rw [takeReply, run_bind_of_ok_ok h]
      dsimp only
      rw [hreply]
      rfl
    rw [awaitReply_eq, run_bind_of_ok_ok htake]
    rfl

end

/-! ### Sending and waiting by turns -/

variable {r : Retransmission} {request : Bytes} {dest : Endpoint} {n : Nat} {wait : Duration}
  {s t u v : σ}

theorem run_exchangeFrom_of_refused {e : IoError}
    (htransmit : ((socket.transmit request dest).run.run).run s = (.ok (.error e), t)) :
    ((socket.exchangeFrom r id request dest (n + 1) wait).run.run).run s =
      (.ok (.error e), t) := by
  rw [exchangeFrom, run_bind_of_ok_error htransmit]

section

variable (htransmit : ((socket.transmit request dest).run.run).run s = (.ok (.ok ()), t))
include htransmit

theorem run_exchangeFrom_of_stopped {e : ε}
    (hdeadline : ((socket.deadline wait).run).run t = (.error e, u)) :
    ((socket.exchangeFrom r id request dest (n + 1) wait).run.run).run s = (.error e, u) := by
  rw [exchangeFrom, run_bind_of_ok_ok htransmit, run_bind_of_stopped (run_lift_of_error hdeadline)]

variable (hdeadline : ((socket.deadline wait).run).run t = (.ok deadline, u))
include hdeadline

theorem run_exchangeFrom_of_failed {e : IoError}
    (hawait : ((socket.awaitReply id deadline).run.run).run u = (.ok (.error e), v)) :
    ((socket.exchangeFrom r id request dest (n + 1) wait).run.run).run s =
      (.ok (.error e), v) := by
  rw [exchangeFrom, run_bind_of_ok_ok htransmit, run_bind_of_ok_ok (run_lift_of_ok hdeadline),
    run_bind_of_ok_error hawait]

theorem run_exchangeFrom_of_reply {reply : Stun.Message × Endpoint}
    (hawait : ((socket.awaitReply id deadline).run.run).run u = (.ok (.ok (some reply)), v)) :
    ((socket.exchangeFrom r id request dest (n + 1) wait).run.run).run s =
      (.ok (.ok (some reply)), v) := by
  rw [exchangeFrom, run_bind_of_ok_ok htransmit, run_bind_of_ok_ok (run_lift_of_ok hdeadline),
    run_bind_of_ok_ok hawait]
  rfl

theorem run_exchangeFrom_of_silence
    (hawait : ((socket.awaitReply id deadline).run.run).run u = (.ok (.ok none), v)) :
    ((socket.exchangeFrom r id request dest (n + 1) wait).run.run).run s =
      ((socket.exchangeFrom r id request dest n (r.next wait)).run.run).run v := by
  rw [exchangeFrom, run_bind_of_ok_ok htransmit, run_bind_of_ok_ok (run_lift_of_ok hdeadline),
    run_bind_of_ok_ok hawait]

end

end Socket

end NatBehavior
