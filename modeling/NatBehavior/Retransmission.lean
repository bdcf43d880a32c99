import NatBehavior.Duration.Basic

/-! When a request is sent again: the wait after each transmission doubles up to a bound. -/
namespace NatBehavior

structure Retransmission where
  /-- Wait after the first transmission. -/
  initial : Duration
  /-- Bound of every wait. -/
  longest : Duration
  /-- How often a request is sent in all. -/
  transmissions : Nat
deriving DecidableEq, Repr

namespace Retransmission

/-- Nine transmissions with waits from 100 ms up to 1600 ms. -/
def standard : Retransmission := ⟨.ofMillis 100, .ofMillis 1600, 9⟩

/-- The wait after the first transmission. -/
def first (r : Retransmission) : Duration := min r.initial r.longest

/-- The wait that follows a wait. -/
def next (r : Retransmission) (wait : Duration) : Duration := min wait.double r.longest

/-- So many waits, from a given one on. -/
def waitsFrom (r : Retransmission) : Nat → Duration → List Duration
  | 0, _ => []
  | n + 1, wait => wait :: r.waitsFrom n (r.next wait)

/-- The wait after each transmission, in order. -/
def waits (r : Retransmission) : List Duration :=
  r.waitsFrom r.transmissions r.first

/-- How long a probe can wait in all, none where the waits so far are longer than any duration. -/
def totalWait? (r : Retransmission) : Option Duration :=
  r.waits.foldlM Duration.add? Duration.zero

@[simp] theorem length_waitsFrom (r : Retransmission) (n : Nat) (wait : Duration) :
    (r.waitsFrom n wait).length = n := by
  induction n generalizing wait with
  | zero => rfl
  | succ n ih => simp [waitsFrom, ih]

@[simp] theorem length_waits (r : Retransmission) : r.waits.length = r.transmissions := by
  simp [waits]

end Retransmission

end NatBehavior
