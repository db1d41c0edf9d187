import Mathlib
import ShardProxy.Hash.Fnv

/-!
# Wide FNV hashes in half the width

The low half of a product depends only on the low halves of its factors, and exclusive or works bit
by bit. So the low half of a 64-bit FNV hash can be computed in 32 bits, on the low halves of the
constants, whichever of the two steps comes first.

* `low_mulAfter`, `low_mulBefore` — the low half of one step, for FNV-1a and for FNV-1;
* `low_halves_exact` — the same for whole keys.
-/

namespace ShardProxy.Hash.Fnv

/-- 64-bit FNV-1a: each byte is mixed in, then the hash is multiplied. -/
def standard1a (key : Bytes) : UInt64 :=
  key.foldl (fun h b => (h ^^^ b.toUInt64) * 0x100000001b3) 0xcbf29ce484222325

/-- FNV-1 in words of 32 bits throughout: the hash is multiplied, then each byte is mixed in. -/
def narrow1 (key : Bytes) : UInt32 :=
  key.foldl (fun h b => (h * 0x1b3) ^^^ b.toUInt32) 0x84222325

theorem low_mulAfter (h prime : UInt64) (b : UInt8) :
    ((h ^^^ b.toUInt64) * prime).toUInt32 = (h.toUInt32 ^^^ b.toUInt32) * prime.toUInt32 := by
  rw [UInt64.toUInt32_mul, UInt64.toUInt32_xor, UInt8.toUInt32_toUInt64]

theorem low_mulBefore (h prime : UInt64) (b : UInt8) :
    ((h * prime) ^^^ b.toUInt64).toUInt32 = (h.toUInt32 * prime.toUInt32) ^^^ b.toUInt32 := by
  rw [UInt64.toUInt32_xor, UInt64.toUInt32_mul, UInt8.toUInt32_toUInt64]

/-- **The low halves are exact.** On the low halves of its constants 64-bit FNV-1a gives the low
half of its hash; and the low half of 64-bit FNV-1 is what 32-bit words give. -/
theorem low_halves_exact (key : Bytes) :
    fnv1aWide key = (standard1a key).toUInt32 ∧ fnv1Wide key = narrow1 key := by
  constructor
  · exact List.foldl_hom UInt64.toUInt32 fun h b => (low_mulAfter h prime64 b).symm
  · have hprime : prime64.toUInt32 = 0x1b3 := rfl
    have hstep : ∀ (h : UInt64) (b : UInt8), (h.toUInt32 * 0x1b3) ^^^ b.toUInt32 =
        ((h * prime64) ^^^ b.toUInt64).toUInt32 := by
      intro h b
      rw [low_mulBefore, hprime]
    exact (List.foldl_hom UInt64.toUInt32 hstep).symm

/-- The hash of the letter `a`, wide and narrow. -/
example : standard1a [97] = 0xaf63dc4c8601ec8c ∧ fnv1aWide [97] = 0x8601ec8c := by decide

end ShardProxy.Hash.Fnv
