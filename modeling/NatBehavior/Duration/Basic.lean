/-! Spans of time in nanoseconds, below 2^64 seconds. -/
namespace NatBehavior

structure Duration where
  nanos : Nat
  isLt : nanos < 18446744073709551616 * 1000000000
deriving DecidableEq, Repr

namespace Duration

@[ext] theorem ext {x y : Duration} (h : x.nanos = y.nanos) : x = y := by
  cases x; cases y; simp_all

def zero : Duration := ⟨0, by decide⟩

/-- The longest span. -/
def longest : Duration := ⟨18446744073709551616 * 1000000000 - 1, by decide⟩

/-- The span of so many nanoseconds, none where there are too many. -/
def ofNanos? (n : Nat) : Option Duration :=
  if h : n < 18446744073709551616 * 1000000000 then some ⟨n, h⟩ else none

/-- The span of so many nanoseconds, or the longest. -/
def clamp (n : Nat) : Duration :=
  ⟨min n longest.nanos, Nat.lt_of_le_of_lt (Nat.min_le_right _ _) longest.isLt⟩

/-- Every count of milliseconds in 64 bits is a span. -/
def ofMillis (n : UInt64) : Duration :=
  ⟨n.toNat * 1000000, by have := n.toNat_lt; omega⟩

/-- Every count of seconds in 64 bits is a span. -/
def ofSecs (n : UInt64) : Duration :=
  ⟨n.toNat * 1000000000, by have := n.toNat_lt; omega⟩

def secs (d : Duration) : Nat := d.nanos / 1000000000

/-- Nanoseconds past the last whole second. -/
def subsecNanos (d : Duration) : Nat := d.nanos % 1000000000

def millis (d : Duration) : Nat := d.nanos / 1000000

/-- Twice the span, or the longest. -/
def double (d : Duration) : Duration := clamp (2 * d.nanos)

/-- Two spans together, none where they are longer than any span. -/
def add? (x y : Duration) : Option Duration := ofNanos? (x.nanos + y.nanos)

instance : LE Duration := ⟨fun x y => x.nanos ≤ y.nanos⟩

instance (x y : Duration) : Decidable (x ≤ y) := inferInstanceAs (Decidable (x.nanos ≤ y.nanos))

instance : Min Duration := ⟨fun x y => if x ≤ y then x else y⟩

@[simp] theorem nanos_clamp (n : Nat) : (clamp n).nanos = min n longest.nanos := rfl

@[simp] theorem nanos_min (x y : Duration) : (min x y).nanos = min x.nanos y.nanos := by
  change (if x.nanos ≤ y.nanos then x else y).nanos = _
  split <;> omega

end Duration

end NatBehavior
