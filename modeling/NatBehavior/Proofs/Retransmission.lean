import Mathlib.Algebra.Ring.Nat
import NatBehavior.Retransmission

/-! The schedule in closed form. A wait that was doubled past the longest duration, or clamped to
the bound of the schedule, stays at the bound from then on, and so does the unclamped power of two.
Adding up the waits fails only where their sum is no duration: no total on the way is longer. -/
namespace NatBehavior

namespace Duration

theorem nanos_le_longest (x : Duration) : x.nanos ≤ longest.nanos := Nat.le_sub_one_of_lt x.isLt

@[simp] theorem ofNanos?_nanos (x : Duration) : ofNanos? x.nanos = some x := dif_pos x.isLt

theorem ofNanos?_eq_none {n : Nat} (h : longest.nanos < n) : ofNanos? n = none :=
  dif_neg (Nat.not_lt.mpr (Nat.le_of_pred_lt h))

theorem map_nanos_ofNanos? (n : Nat) :
    (ofNanos? n).map nanos = if n < 2 ^ 64 * 10 ^ 9 then some n else none := by
  have hlimit : (2 ^ 64 * 10 ^ 9 : Nat) = 18446744073709551616 * 1000000000 := rfl
  rw [hlimit, ofNanos?]
  split <;> rfl

/-- A chain of checked additions is one check of the sum. -/
theorem foldlM_add? (total : Duration) (waits : List Duration) :
    waits.foldlM add? total = ofNanos? (total.nanos + (waits.map nanos).sum) := by
  induction waits generalizing total with
  | nil => simp
  | cons wait waits ih =>
    rw [List.foldlM_cons, List.map_cons, List.sum_cons, ← Nat.add_assoc]
    by_cases hfits : total.nanos + wait.nanos ≤ longest.nanos
    · have hnext : add? total wait = some ⟨total.nanos + wait.nanos, Nat.lt_succ_of_le hfits⟩ :=
        dif_pos (Nat.lt_succ_of_le hfits)
      rw [hnext]
      exact ih _
    · have hnext : add? total wait = none := ofNanos?_eq_none (Nat.lt_of_not_le hfits)
      rw [hnext, ofNanos?_eq_none (by omega)]
      rfl

end Duration

namespace Retransmission

variable {r : Retransmission} {wait : Duration} {n : Nat}

theorem totalWait?_eq_ofNanos? (r : Retransmission) :
    r.totalWait? = Duration.ofNanos? (r.waits.map Duration.nanos).sum := by
  rw [totalWait?, Duration.foldlM_add?]
  exact congrArg Duration.ofNanos? (Nat.zero_add _)

theorem nanos_next (h : wait.nanos = min n r.longest.nanos) :
    (r.next wait).nanos = min (n * 2) r.longest.nanos := by
  have hlongest : r.longest.nanos ≤ Duration.longest.nanos := r.longest.nanos_le_longest
  rw [next, Duration.nanos_min, Duration.double, Duration.nanos_clamp, h]
  omega

theorem map_nanos_waitsFrom (h : wait.nanos = min n r.longest.nanos) (count : Nat) :
    (r.waitsFrom count wait).map Duration.nanos =
      (List.range count).map fun i => min (n * 2 ^ i) r.longest.nanos := by
  induction count generalizing wait n with
  | zero => rfl
  | succ count ih =>
    rw [waitsFrom, List.map_cons, ih (nanos_next h), h, List.range_succ_eq_map, List.map_cons,
      List.map_map, pow_zero, Nat.mul_one]
    congr 2
    funext i
    simp only [Function.comp_apply, pow_succ', Nat.mul_assoc]

theorem map_nanos_waits (r : Retransmission) :
    r.waits.map Duration.nanos =
      (List.range r.transmissions).map fun i => min (r.initial.nanos * 2 ^ i) r.longest.nanos :=
  map_nanos_waitsFrom (Duration.nanos_min r.initial r.longest) r.transmissions

/-- Every wait is the first one doubled as often as the request was sent before, or the bound, as
if there were no longest duration; and a probe can be waited out exactly where these add up to less
than 2^64 seconds. -/
theorem waits_closed_form (r : Retransmission) :
    let schedule := (List.range r.transmissions).map fun i =>
      min (r.initial.nanos * 2 ^ i) r.longest.nanos
    r.waits.length = r.transmissions ∧
    r.waits.map Duration.nanos = schedule ∧
    r.totalWait?.map Duration.nanos =
      if schedule.sum < 2 ^ 64 * 10 ^ 9 then some schedule.sum else none := by
  intro schedule
  have hwaits : r.waits.map Duration.nanos = schedule := r.map_nanos_waits
  refine ⟨r.length_waits, hwaits, ?_⟩
  rw [totalWait?_eq_ofNanos?, hwaits, Duration.map_nanos_ofNanos?]

example : standard.waits.map Duration.millis = [100, 200, 400, 800, 1600, 1600, 1600, 1600, 1600] ∧
    standard.totalWait?.map Duration.millis = some 9500 := by decide

end Retransmission

end NatBehavior
