import Mathlib.Order.Defs.PartialOrder
import NatBehavior.Proofs.Network.Traffic
import NatBehavior.Proofs.Retransmission

/-! The waits of a schedule grow from the first to the bound, so that so many of them take no
longer than as many bounds. A run over waits that end within the range of clocks is not stopped by
one. -/
namespace NatBehavior

namespace Duration

theorem le_def {x y : Duration} : x ≤ y ↔ x.nanos ≤ y.nanos := Iff.rfl

instance : Preorder Duration where
  le_refl x := Nat.le_refl x.nanos
  le_trans _ _ _ := Nat.le_trans

theorem le_double (x : Duration) : x ≤ x.double := by
  have hlongest : x.nanos ≤ longest.nanos := nanos_le_longest x
  rw [le_def, double, nanos_clamp]
  omega

theorem min_eq_left {x y : Duration} (h : x ≤ y) : min x y = x := if_pos h

theorem ofMillis_le_ofMillis {m n : UInt64} (h : m ≤ n) : ofMillis m ≤ ofMillis n :=
  Nat.mul_le_mul_right 1000000 (UInt64.le_iff_toNat_le.mp h)

end Duration

namespace Retransmission

variable {r : Retransmission} {wait : Duration} {n : Nat}

theorem first_le_longest (r : Retransmission) : r.first ≤ r.longest := by
  rw [Duration.le_def, first, Duration.nanos_min]
  exact Nat.min_le_right _ _

theorem next_le_longest (r : Retransmission) (wait : Duration) : r.next wait ≤ r.longest := by
  rw [Duration.le_def, next, Duration.nanos_min]
  exact Nat.min_le_right _ _

theorem le_next (h : wait ≤ r.longest) : wait ≤ r.next wait := by
  rw [Duration.le_def, next, Duration.nanos_min]
  exact Nat.le_min.mpr ⟨wait.le_double, h⟩

theorem le_of_mem_waitsFrom (h : wait ≤ r.longest) {x : Duration} (hx : x ∈ r.waitsFrom n wait) :
    wait ≤ x ∧ x ≤ r.longest := by
  induction n generalizing wait with
  | zero => cases hx
  | succ n ih =>
    rcases List.mem_cons.mp hx with rfl | hx
    · exact ⟨le_rfl, h⟩
    · obtain ⟨hlow, hhigh⟩ := ih (r.next_le_longest wait) hx
      exact ⟨le_trans (le_next h) hlow, hhigh⟩

theorem pairwise_waitsFrom (h : wait ≤ r.longest) : (r.waitsFrom n wait).Pairwise (· ≤ ·) := by
  induction n generalizing wait with
  | zero => exact .nil
  | succ n ih =>
    refine .cons (fun x hx => ?_) (ih (r.next_le_longest wait))
    exact le_trans (le_next h) (le_of_mem_waitsFrom (r.next_le_longest wait) hx).1

theorem le_of_mem_waits {x : Duration} (hx : x ∈ r.waits) : r.first ≤ x ∧ x ≤ r.longest :=
  le_of_mem_waitsFrom r.first_le_longest hx

theorem pairwise_waits (r : Retransmission) : r.waits.Pairwise (· ≤ ·) :=
  pairwise_waitsFrom r.first_le_longest

theorem head?_waits (h : 0 < r.transmissions) : r.waits.head? = some r.first := by
  unfold waits
  obtain ⟨n, hn⟩ := Nat.exists_eq_succ_of_ne_zero (Nat.ne_of_gt h)
  rw [hn]
  rfl

/-- How long a probe of a schedule can wait, were there no longest duration. -/
def total (r : Retransmission) : Nat := elapsed r.waits r.waits.length

theorem total_le (r : Retransmission) : r.total ≤ r.transmissions * r.longest.nanos := by
  have hbound : ∀ nanos ∈ r.waits.map Duration.nanos, nanos ≤ r.longest.nanos :=
    List.forall_mem_map.mpr fun x hx => (le_of_mem_waits hx).2
  have hsum := List.sum_le_card_nsmul _ _ hbound
  rw [List.length_map, length_waits, nsmul_eq_mul, Nat.cast_id] at hsum
  rwa [total, elapsed, List.take_length]

theorem totalWait?_eq (r : Retransmission) : r.totalWait? = Duration.ofNanos? r.total := by
  rw [totalWait?_eq_ofNanos?, total, elapsed, List.take_length]

end Retransmission

namespace Site

open Inquiry (Step)
open Retransmission (elapsed elapsed_le_elapsed)

variable {site : Site} {r : Retransmission} {id : Stun.TransactionId} {request : Bytes}
  {target : Endpoint} {software : Option String} {w w' : World} {waits : List Duration}
  {result : Except Halt (Except IoError (Option (Stun.Message × Endpoint)))}

/-- An exchange is over when its waits are, and nothing stops it where the clock can tell that
time. -/
theorem Exchanged.in_time (h : Exchanged site id request target waits w result w') :
    w'.now ≤ w.now + elapsed waits waits.length ∧
    (w.now + elapsed waits waits.length < site.clockEnd → ∃ found, result = .ok found) := by
  have hwithin : ∀ k ≤ waits.length, elapsed waits k ≤ elapsed waits waits.length :=
    fun _ => elapsed_le_elapsed
  cases h with
  | refused _ hk => exact ⟨Nat.add_le_add_left (hwithin _ (Nat.le_of_lt hk)) _, fun _ => ⟨_, rfl⟩⟩
  | @stopped k _ hk _ hclock =>
    refine ⟨Nat.add_le_add_left (hwithin _ (Nat.le_of_lt hk)) _, fun hend => ?_⟩
    have hle := hwithin (k + 1) hk
    omega
  | @ended _ _ a _ j _ hj _ _ _ _ _ _ hend =>
    refine ⟨?_, fun _ => ⟨_, rfl⟩⟩
    change max w.now a.due ≤ _
    have hle := hwithin (j + 1) hj
    omega
  | silent => exact ⟨Nat.le_refl _, fun _ => ⟨_, rfl⟩⟩

/-- A run is not stopped by the clock where its probes can all be waited out in the clock's
range. -/
theorem exists_run_eq_ok (inquiry : Inquiry) (hscript : w.script = []) (horder : InOrder w.inbox)
    (hclock : w.now + (inquiry.steps (site.socket.probe r software) w).length * r.total <
      site.clockEnd) :
    ∃ c, (((inquiry.run (site.socket.probe r software)).run).run w).1 = .ok c := by
  induction inquiry generalizing w with
  | verdict c => exact ⟨c, rfl⟩
  | probe dest change next ih =>
    obtain ⟨result, hexchanged, hanswer⟩ :=
      exchanged_probed site r software dest change hscript horder
    obtain ⟨hnow, hreturns⟩ := hexchanged.in_time
    change (site.probed r software dest change w).2.now ≤ w.now + r.total at hnow
    change w.now + r.total < site.clockEnd → _ at hreturns
    rw [← run_probe] at hexchanged hanswer hnow
    rcases hrun : ((site.socket.probe r software dest change).run).run w with ⟨halt | outcome, w'⟩
    · rw [Inquiry.steps_probe_of_error hrun, List.length_singleton, Nat.one_mul] at hclock
      obtain ⟨found, rfl⟩ := hreturns hclock
      rw [hrun] at hanswer
      cases hanswer
    · rw [hrun] at hexchanged hnow
      have hnow : w'.now ≤ w.now + r.total := hnow
      rw [Inquiry.steps_probe_of_ok hrun, List.length_cons, Nat.succ_mul] at hclock
      rw [Inquiry.run_probe_of_ok hrun]
      exact ih outcome (hexchanged.script_eq.trans hscript)
        (horder.sublist hexchanged.inbox_suffix.sublist) (by omega)

theorem exists_discoverWith_eq_ok {d : Detector} (server : Endpoint) (hscript : w.script = [])
    (horder : InOrder w.inbox) (hclock : w.now + 4 * d.retransmission.total < site.clockEnd) :
    ∃ c, (((d.discoverWith site.socket server).run).run w).1 = .ok c := by
  have hfour : (site.detection d server w).length * d.retransmission.total ≤
      4 * d.retransmission.total := Nat.mul_le_mul_right _ (length_detection_le site d server w)
  exact exists_run_eq_ok _ hscript horder (by unfold detection at hfour; omega)

end Site

end NatBehavior
