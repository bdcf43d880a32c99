import NatBehavior.Address.Basic
import NatBehavior.Text.Reader

/-! Numbers-and-dots notation for version 4 addresses: one to four numbers with dots between them.
All but the last stand for a byte each and the last for the bytes that are left. A number is
hexadecimal after `0x`, octal after another leading zero, and decimal otherwise. -/
namespace NatBehavior

namespace NumbersAndDots

/-- The value of a number within 32 bits. -/
def number? : List Char → Option Nat
  | [] => none
  | '0' :: x :: cs =>
    if x = 'x' || x = 'X' then
      if cs.isEmpty then none else Reader.inRadix? 16 4294967295 cs
    else Reader.inRadix? 8 4294967295 (x :: cs)
  | cs => Reader.inRadix? 10 4294967295 cs

/-- The value of numbers that fill some bytes. -/
def fill? : (room : Nat) → List Char → Option Nat
  | 0, _ => none
  | room + 1, cs => do
    let n ← number? (cs.takeWhile (· ≠ '.'))
    match cs.dropWhile (· ≠ '.') with
    | [] => if n < 1 <<< (8 * (room + 1)) then some n else none
    | _ :: rest =>
      if n < 256 then (fill? room rest).map (n <<< (8 * room) + ·) else none

theorem lt_of_fill? {room v : Nat} {cs : List Char} (h : fill? room cs = some v) :
    v < 1 <<< (8 * room) := by
  induction room generalizing cs v with
  | zero => simp [fill?] at h
  | succ room ih =>
    rw [fill?] at h
    obtain ⟨n, _, h⟩ := Option.bind_eq_some_iff.mp h
    split at h
    · split at h
      next hn => exact Option.some.inj h ▸ hn
      next => contradiction
    · split at h
      next hn =>
        obtain ⟨low, hlow, rfl⟩ := Option.map_eq_some_iff.mp h
        have hlow := ih hlow
        have hn := Nat.mul_le_mul_right (1 <<< (8 * room)) (Nat.succ_le_of_lt hn)
        rw [Nat.succ_mul] at hn
        have hs : 1 <<< (8 * (room + 1)) = 256 * 1 <<< (8 * room) := by
          rw [Nat.mul_add, Nat.add_comm, Nat.shiftLeft_add]
          simp [Nat.shiftLeft_eq]
        have hm : n <<< (8 * room) = n * 1 <<< (8 * room) := by simp [Nat.shiftLeft_eq]
        omega
      next => contradiction

end NumbersAndDots

/-- Reads the whole text as an address in numbers-and-dots notation. -/
def Ipv4.ofNumbersAndDots? (cs : List Char) : Option Ipv4 := do
  Ipv4.ofOctets? (Bytes.ofWord32 (← NumbersAndDots.fill? 4 cs).toUInt32)

end NatBehavior
