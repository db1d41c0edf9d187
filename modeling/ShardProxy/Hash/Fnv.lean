import ShardProxy.Text.Bytes

/-!
# FNV hashes

Four variants: 32 or 64 bits wide, and multiplying before or after the byte is mixed in. Results
are 32 bits wide; the wide variants keep the low half.
-/

namespace ShardProxy.Hash.Fnv

def basis64 : UInt64 := 0xcbf29ce484222325
def prime64 : UInt64 := 0x100000001b3
def basis32 : UInt32 := 2166136261
def prime32 : UInt32 := 16777619

/-- 64-bit FNV-1, the low half. -/
def fnv1Wide (key : Bytes) : UInt32 :=
  (key.foldl (fun h b => (h * prime64) ^^^ b.toUInt64) basis64).toUInt32

/-- The low half of 64-bit FNV-1a, computed on the low halves of its constants. -/
def fnv1aWide (key : Bytes) : UInt32 :=
  key.foldl (fun h b => (h ^^^ b.toUInt32) * prime64.toUInt32) basis64.toUInt32

/-- 32-bit FNV-1. -/
def fnv1 (key : Bytes) : UInt32 :=
  key.foldl (fun h b => (h * prime32) ^^^ b.toUInt32) basis32

/-- 32-bit FNV-1a. -/
def fnv1a (key : Bytes) : UInt32 :=
  key.foldl (fun h b => (h ^^^ b.toUInt32) * prime32) basis32

end ShardProxy.Hash.Fnv
