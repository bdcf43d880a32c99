import NatBehavior.Duration.Basic
import NatBehavior.Duration.Rounding

/-! Durations for people: whole milliseconds below a second, tenths of a second below a minute,
and whole minutes and seconds from there. -/
namespace NatBehavior.Duration

/-- Seconds as a double: the fraction is rounded on its own, then its sum with the whole part. -/
def secsDouble (d : Duration) : Dyadic :=
  (Dyadic.nearest d.subsecNanos 1000000000).addNat d.secs

def text (d : Duration) : List Char :=
  if d.secs = 0 then Nat.toDigits 10 d.millis ++ ['m', 's']
  else if d.secs < 60 then
    let tenths := d.secsDouble.tenths
    Nat.toDigits 10 (tenths / 10) ++ '.' :: Nat.toDigits 10 (tenths % 10) ++ ['s']
  else
    Nat.toDigits 10 (d.secs / 60) ++ 'm' :: ' ' :: Nat.toDigits 10 (d.secs % 60) ++ ['s']

instance : ToString Duration := ⟨fun d => String.ofList d.text⟩

end NatBehavior.Duration
