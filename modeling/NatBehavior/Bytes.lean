/-! Byte strings and the big-endian words of the wire. Widths are converted through
natural numbers, so the laws of a word and its bytes are arithmetic. -/
namespace NatBehavior

abbrev Bytes := List UInt8

namespace Bytes

/-- The two bytes of a word, high byte first. -/
def ofWord16 (w : UInt16) : Bytes :=
  [(w.toNat / 256).toUInt8, w.toNat.toUInt8]

/-- The four bytes of a word, high byte first. -/
def ofWord32 (w : UInt32) : Bytes :=
  [(w.toNat / 16777216).toUInt8, (w.toNat / 65536).toUInt8, (w.toNat / 256).toUInt8,
    w.toNat.toUInt8]

/-- The word of two bytes, high byte first. -/
def word16 (a b : UInt8) : UInt16 :=
  (a.toNat * 256 + b.toNat).toUInt16

/-- The word of four bytes, high byte first. -/
def word32 (a b c d : UInt8) : UInt32 :=
  (a.toNat * 16777216 + b.toNat * 65536 + c.toNat * 256 + d.toNat).toUInt32

@[simp] theorem length_ofWord16 (w : UInt16) : (ofWord16 w).length = 2 := rfl

@[simp] theorem length_ofWord32 (w : UInt32) : (ofWord32 w).length = 4 := rfl

theorem word16_ofWord16 (w : UInt16) :
    word16 (w.toNat / 256).toUInt8 w.toNat.toUInt8 = w := by
  apply UInt16.toNat.inj
  have h := w.toNat_lt
  simp only [word16, Nat.toUInt8, Nat.toUInt16, UInt16.toNat_ofNat', UInt8.toNat_ofNat']
  omega

theorem word32_ofWord32 (w : UInt32) :
    word32 (w.toNat / 16777216).toUInt8 (w.toNat / 65536).toUInt8 (w.toNat / 256).toUInt8
      w.toNat.toUInt8 = w := by
  apply UInt32.toNat.inj
  have h := w.toNat_lt
  simp only [word32, Nat.toUInt8, Nat.toUInt32, UInt32.toNat_ofNat', UInt8.toNat_ofNat']
  omega

theorem ofWord16_word16 (a b : UInt8) : ofWord16 (word16 a b) = [a, b] := by
  have ha := a.toNat_lt
  have hb := b.toNat_lt
  simp only [ofWord16, word16, Nat.toUInt8, Nat.toUInt16, UInt16.toNat_ofNat', ← UInt8.toNat_inj,
    UInt8.toNat_ofNat', List.cons.injEq, and_true]
  omega

theorem ofWord32_word32 (a b c d : UInt8) : ofWord32 (word32 a b c d) = [a, b, c, d] := by
  have ha := a.toNat_lt
  have hb := b.toNat_lt
  have hc := c.toNat_lt
  have hd := d.toNat_lt
  simp only [ofWord32, word32, Nat.toUInt8, Nat.toUInt32, UInt32.toNat_ofNat', ← UInt8.toNat_inj,
    UInt8.toNat_ofNat', List.cons.injEq, and_true]
  omega

/-- Overwrites part of a byte string from an offset on; what would run past the end is dropped. -/
def patch (bytes : Bytes) (offset : Nat) (part : Bytes) : Bytes :=
  bytes.take offset ++ part.take (bytes.length - offset) ++ bytes.drop (offset + part.length)

end Bytes

end NatBehavior
