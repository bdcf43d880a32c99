import NatBehavior.Bytes

/-! CRC-32 with the reflected polynomial 0xEDB88320: a register of 32 bits, preset to ones and
complemented at the end, that takes one bit at a time, least significant first. -/
namespace NatBehavior.Checksum

def polynomial : UInt32 := 0xEDB88320

/-- Shifts one bit out of the register. -/
def shift (register : UInt32) : UInt32 :=
  if register &&& 1 = 1 then (register >>> 1) ^^^ polynomial else register >>> 1

/-- Takes in one byte. -/
def step (register : UInt32) (byte : UInt8) : UInt32 :=
  Nat.repeat shift 8 (register ^^^ byte.toUInt32)

/-- Takes in a byte string. -/
def feed (register : UInt32) (bytes : Bytes) : UInt32 :=
  bytes.foldl step register

def preset : UInt32 := 0xFFFFFFFF

/-- The checksum that a register stands for. -/
def finish (register : UInt32) : UInt32 := ~~~register

def crc32 (bytes : Bytes) : UInt32 :=
  finish (feed preset bytes)

@[simp] theorem feed_nil (register : UInt32) : feed register [] = register := rfl

@[simp] theorem feed_append (register : UInt32) (xs ys : Bytes) :
    feed register (xs ++ ys) = feed (feed register xs) ys :=
  List.foldl_append

end NatBehavior.Checksum
