import ShardProxy.Text.Bytes

/-!
# CRC-16

The remainder of the key, read as a polynomial over two elements and shifted by sixteen places,
on division by `x^16 + x^12 + x^5 + 1`. The division goes bit by bit, most significant first.
-/

namespace ShardProxy.Hash.Crc16

/-- The divisor without its leading term. -/
def polynomial : UInt16 := 0x1021

/-- One bit of the long division. -/
def shift (crc : UInt16) : UInt16 :=
  if crc &&& 0x8000 != 0 then (crc <<< 1) ^^^ polynomial else crc <<< 1

def absorb (crc : UInt16) (b : UInt8) : UInt16 :=
  Nat.repeat shift 8 (crc ^^^ (b.toUInt16 <<< 8))

def hash (key : Bytes) : UInt16 := key.foldl absorb 0

end ShardProxy.Hash.Crc16
