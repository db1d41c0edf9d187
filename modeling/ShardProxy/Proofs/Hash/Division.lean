import Mathlib
import ShardProxy.Hash.Crc16

/-!
# CRC-16 as a division

A word of `n` bits stands for a polynomial over two elements of degree below `n`, and a byte string
for the polynomial of all its bits, the most significant first. In these terms one step of the bit
loop multiplies by `X` and takes the remainder, so that the loop over the bytes leaves the remainder
of the whole string, moved up sixteen places.

Steps are compared by their residues modulo the divisor, where a remainder is as good as what it is
a remainder of:

* `residue_shift`, `residue_absorb`, `residue_foldl` — one bit, one byte, a byte string;
* `hash_is_remainder` — the hash itself, that a string followed by its own hash leaves nothing, and
  that the hash is linear.
-/

namespace ShardProxy.Hash.Crc16

open Polynomial

noncomputable section

/-- A bit as a coefficient. -/
def coefficient (b : Bool) : (ZMod 2)[X] := if b then 1 else 0

/-- The polynomial whose coefficient at `X ^ i` is bit `i` of a word. -/
def ofWord {n : Nat} (w : BitVec n) : (ZMod 2)[X] :=
  ∑ i ∈ Finset.range n, coefficient (w.getLsbD i) * X ^ i

/-- The bits of a byte string, the most significant of each byte first. -/
def bits (data : Bytes) : List Bool :=
  data.flatMap fun b => (List.range 8).map b.toBitVec.getMsbD

/-- The polynomial of some bits, the highest power first. -/
def ofBits (bs : List Bool) : (ZMod 2)[X] := bs.foldl (fun p b => p * X + coefficient b) 0

def divisor : (ZMod 2)[X] := X ^ 16 + X ^ 12 + X ^ 5 + 1

/-- A polynomial up to multiples of the divisor. -/
abbrev residue : (ZMod 2)[X] →+* AdjoinRoot divisor := AdjoinRoot.mk divisor

/-- A word as two bytes, the high one first. -/
def bigEndian (w : UInt16) : Bytes := [(w >>> 8).toUInt8, w.toUInt8]

/-! ## Words -/

variable {n : Nat}

theorem coeff_coefficient (b : Bool) (i : Nat) :
    (coefficient b).coeff i = if b = true ∧ i = 0 then 1 else 0 := by
  cases b <;> simp [coefficient, coeff_one]

theorem coeff_ofWord (w : BitVec n) (i : Nat) :
    (ofWord w).coeff i = if w.getLsbD i then 1 else 0 := by
  have hterm : ∀ k, (coefficient (w.getLsbD k) * X ^ k).coeff i =
      if i = k then (if w.getLsbD i then 1 else 0) else 0 := by
    intro k
    unfold coefficient
    split_ifs <;> simp_all [coeff_X_pow]
  simp only [ofWord, finsetSum_coeff, hterm, Finset.sum_ite_eq, Finset.mem_range]
  by_cases hi : i < n
  · rw [if_pos hi]
  · rw [if_neg hi, BitVec.getLsbD_of_ge w i (Nat.le_of_not_lt hi)]
    rfl

theorem ofWord_xor (v w : BitVec n) : ofWord (v ^^^ w) = ofWord v + ofWord w := by
  ext i
  simp only [coeff_add, coeff_ofWord, BitVec.getLsbD_xor]
  cases v.getLsbD i <;> cases w.getLsbD i <;> decide

theorem ofWord_injective : Function.Injective (ofWord (n := n)) := by
  intro v w h
  refine BitVec.eq_of_getLsbD_eq fun i _ => ?_
  have hi := congrArg (fun p => p.coeff i) h
  simp only [coeff_ofWord] at hi
  cases hv : v.getLsbD i <;> cases hw : w.getLsbD i <;> simp_all

theorem degree_ofWord_lt (w : BitVec n) : (ofWord w).degree < n := by
  rw [degree_lt_iff_coeff_zero]
  intro i hi
  rw [coeff_ofWord, BitVec.getLsbD_of_ge w i hi]
  rfl

/-- A word moved up in a wider one, where it has room. -/
theorem ofWord_shiftLeft_setWidth (w : BitVec n) {k m : Nat} (hm : n + k ≤ m) :
    ofWord (w.setWidth m <<< k) = X ^ k * ofWord w := by
  ext i
  rw [coeff_X_pow_mul', coeff_ofWord, coeff_ofWord, BitVec.getLsbD_shiftLeft,
    BitVec.getLsbD_setWidth]
  by_cases hk : k ≤ i
  · by_cases hi : i < m
    · simp [hk, hi, Nat.lt_of_le_of_lt (Nat.sub_le i k) hi]
    · simp [hk, hi, BitVec.getLsbD_of_ge w (i - k) (by omega)]
  · simp [hk]

/-- A word moved up by one place within its width loses its top bit. -/
theorem ofWord_shiftLeft_one (w : BitVec (n + 1)) :
    ofWord (w <<< 1) + coefficient (w.getLsbD n) * X ^ (n + 1) = X * ofWord w := by
  ext i
  rw [coeff_add, coeff_ofWord, BitVec.getLsbD_shiftLeft, coeff_mul_X_pow', coeff_coefficient]
  cases i with
  | zero => simp
  | succ i =>
      rw [coeff_X_mul, coeff_ofWord]
      rcases lt_trichotomy i n with hi | rfl | hi
      · simp [hi, Nat.not_le.mpr hi]
      · simp
      · simp [BitVec.getLsbD_of_ge w i hi, Nat.not_lt.mpr hi.le, Nat.sub_ne_zero_of_lt hi]

/-! ## The divisor -/

theorem ofWord_polynomial : ofWord polynomial.toBitVec = X ^ 12 + X ^ 5 + 1 := by
  have hbits : ∀ i ∈ Finset.range 16, polynomial.toBitVec.getLsbD i =
      decide (i = 0 ∨ i = 5 ∨ i = 12) := by decide
  rw [ofWord, Finset.sum_congr rfl fun i hi => by rw [hbits i hi]]
  simp [Finset.sum_range_succ, coefficient]
  ring

theorem divisor_eq : divisor = X ^ 16 + ofWord polynomial.toBitVec := by
  rw [ofWord_polynomial, divisor]
  ring

theorem degree_divisor : divisor.degree = 16 := by
  unfold divisor
  compute_degree!

theorem divisor_monic : divisor.Monic := by
  unfold divisor
  monicity!

/-- What is smaller than the divisor and has the residue of a polynomial is its remainder. -/
theorem eq_modByMonic_of_residue {p q : (ZMod 2)[X]} (hp : p.degree < 16)
    (h : residue p = residue q) : p = q %ₘ divisor := by
  rw [← modByMonic_eq_of_dvd_sub divisor_monic (AdjoinRoot.mk_eq_mk.mp h),
    (modByMonic_eq_self_iff divisor_monic).mpr (degree_divisor ▸ hp)]

/-! ## Steps of the loop -/

theorem top_bit (c : UInt16) : (c &&& 0x8000 != 0) = c.toBitVec.getLsbD 15 := by
  have hand : (c &&& 0x8000).toBitVec =
      if c.toBitVec.getLsbD 15 then BitVec.twoPow 16 15 else 0 := by
    rw [UInt16.toBitVec_and]
    exact BitVec.and_twoPow c.toBitVec 15
  cases hbit : c.toBitVec.getLsbD 15
  · rw [hbit] at hand
    have hzero : c &&& 0x8000 = 0 := UInt16.toBitVec_inj.mp hand
    simp [hzero]
  · rw [hbit] at hand
    have htop : c &&& 0x8000 = 0x8000 := UInt16.toBitVec_inj.mp hand
    simp [htop]

/-- One step multiplies by `X`, and takes the divisor away where the top bit is moved out. -/
theorem residue_shift (c : UInt16) :
    residue (ofWord (shift c).toBitVec) = residue (X * ofWord c.toBitVec) := by
  have hdouble := ofWord_shiftLeft_one c.toBitVec
  unfold shift
  rw [top_bit]
  cases hbit : c.toBitVec.getLsbD 15
  · rw [hbit] at hdouble
    simpa [coefficient] using congrArg residue hdouble
  · rw [hbit] at hdouble
    -- taking away is adding, for there are two elements only
    have hstep : ofWord ((c <<< 1) ^^^ polynomial).toBitVec + divisor = X * ofWord c.toBitVec := by
      calc ofWord ((c <<< 1) ^^^ polynomial).toBitVec + divisor
          = ofWord (c.toBitVec <<< 1) + X ^ 16
              + (ofWord polynomial.toBitVec + ofWord polynomial.toBitVec) := by
            rw [UInt16.toBitVec_xor, ofWord_xor, divisor_eq]
            simp
            ring
        _ = X * ofWord c.toBitVec := by
            rw [CharTwo.add_self_eq_zero, add_zero, ← hdouble]
            simp [coefficient]
    rw [if_pos rfl, ← hstep, map_add, AdjoinRoot.mk_self, add_zero]

theorem residue_repeat_shift (c : UInt16) (k : Nat) :
    residue (ofWord (Nat.repeat shift k c).toBitVec) = residue (X ^ k * ofWord c.toBitVec) := by
  induction k with
  | zero => simp [Nat.repeat]
  | succ k ih => rw [Nat.repeat, residue_shift, map_mul, ih, ← map_mul, pow_succ', mul_assoc]

/-- One byte is added to the upper half of the word before its eight steps. -/
theorem residue_absorb (c : UInt16) (b : UInt8) :
    residue (ofWord (absorb c b).toBitVec) =
      residue (X ^ 8 * ofWord c.toBitVec + X ^ 16 * ofWord b.toBitVec) := by
  have hbyte : ofWord (b.toUInt16 <<< 8).toBitVec = X ^ 8 * ofWord b.toBitVec :=
    ofWord_shiftLeft_setWidth b.toBitVec (m := 16) le_rfl
  have hmixed : ofWord (c ^^^ (b.toUInt16 <<< 8)).toBitVec =
      ofWord c.toBitVec + X ^ 8 * ofWord b.toBitVec := by
    rw [UInt16.toBitVec_xor, ofWord_xor, hbyte]
  rw [absorb, residue_repeat_shift, hmixed, mul_add, ← mul_assoc, ← pow_add]

/-! ## Byte strings -/

theorem ofBits_append (xs ys : List Bool) :
    ofBits (xs ++ ys) = X ^ ys.length * ofBits xs + ofBits ys := by
  induction ys using List.reverseRecOn with
  | nil => simp [ofBits]
  | append_singleton ys b ih =>
      rw [← List.append_assoc]
      simp only [ofBits, List.foldl_append, List.foldl_cons, List.foldl_nil] at ih ⊢
      rw [ih, List.length_append, List.length_singleton]
      ring

theorem length_bits (data : Bytes) : (bits data).length = 8 * data.length := by
  simp [bits, List.length_flatMap, mul_comm]

theorem ofBits_byte (b : UInt8) : ofBits (bits [b]) = ofWord b.toBitVec := by
  simp [bits, ofBits, ofWord, List.range_succ, Finset.sum_range_succ, BitVec.getMsbD]
  ring

theorem ofBits_bits_cons (b : UInt8) (data : Bytes) :
    ofBits (bits (b :: data)) =
      X ^ (8 * data.length) * ofWord b.toBitVec + ofBits (bits data) := by
  have hbits : bits (b :: data) = bits [b] ++ bits data := by simp [bits]
  rw [hbits, ofBits_append, length_bits, ofBits_byte]

/-- What the loop over some bytes leaves, from any word on. -/
theorem residue_foldl (data : Bytes) (c : UInt16) :
    residue (ofWord (data.foldl absorb c).toBitVec) =
      residue (X ^ (8 * data.length) * ofWord c.toBitVec + X ^ 16 * ofBits (bits data)) := by
  induction data generalizing c with
  | nil => simp [ofBits, bits]
  | cons b data ih =>
      have hmoved : X ^ (8 * data.length) * (X ^ 8 * ofWord c.toBitVec + X ^ 16 * ofWord b.toBitVec)
            + X ^ 16 * ofBits (bits data) =
          X ^ (8 * (data.length + 1)) * ofWord c.toBitVec + X ^ 16 * ofBits (bits (b :: data)) := by
        rw [ofBits_bits_cons]
        ring
      rw [List.foldl_cons, ih, map_add, map_mul, residue_absorb, ← map_mul, ← map_add, hmoved,
        List.length_cons]

theorem ofWord_zero : ofWord 0#n = 0 := by
  ext i
  simp [coeff_ofWord]

theorem residue_hash (data : Bytes) :
    residue (ofWord (hash data).toBitVec) = residue (ofBits (bits data) * X ^ 16) := by
  have hloop := residue_foldl data 0
  rw [UInt16.toBitVec_zero, ofWord_zero, mul_zero, zero_add, mul_comm] at hloop
  exact hloop

/-- Words of one residue are equal, for both are its remainder. -/
theorem eq_of_residue {v w : UInt16}
    (h : residue (ofWord v.toBitVec) = residue (ofWord w.toBitVec)) : v = w := by
  refine UInt16.toBitVec_inj.mp (ofWord_injective ?_)
  rw [eq_modByMonic_of_residue (degree_ofWord_lt v.toBitVec) h,
    ← eq_modByMonic_of_residue (degree_ofWord_lt w.toBitVec) rfl]

theorem ofBits_bigEndian (w : UInt16) : ofBits (bits (bigEndian w)) = ofWord w.toBitVec := by
  rw [bigEndian, ofBits_bits_cons, ofBits_byte]
  ext i
  simp only [List.length_singleton, coeff_add, coeff_X_pow_mul', coeff_ofWord,
    UInt16.toBitVec_toUInt8, UInt16.toBitVec_shiftRight, BitVec.getLsbD_setWidth]
  by_cases hi : i < 8
  · simp [hi]
  · by_cases hlt : i < 16
    · simp [hi, hlt, Nat.le_of_not_lt hi, show i - 8 < 8 by omega]
    · have hout := BitVec.getLsbD_of_ge w.toBitVec i (Nat.le_of_not_lt hlt)
      simp [hi, hout, show ¬ i - 8 < 8 by omega]

theorem ofBits_zipWith {a b : Bytes} (h : a.length = b.length) :
    ofBits (bits (List.zipWith (· ^^^ ·) a b)) = ofBits (bits a) + ofBits (bits b) := by
  induction a generalizing b with
  | nil =>
      obtain rfl := List.length_eq_zero_iff.mp h.symm
      simp [bits, ofBits]
  | cons x a ih =>
      obtain ⟨y, b, rfl⟩ := List.exists_cons_of_length_eq_add_one h.symm
      have hlen : a.length = b.length := Nat.succ.inj h
      rw [List.zipWith_cons_cons, ofBits_bits_cons, ofBits_bits_cons, ofBits_bits_cons, ih hlen,
        UInt8.toBitVec_xor, ofWord_xor, List.length_zipWith, hlen, min_self]
      ring

/-- **The hash is a remainder.** It is what the polynomial of all bits, moved up sixteen places,
leaves on division by `X ^ 16 + X ^ 12 + X ^ 5 + 1`. So a byte string followed by its hash leaves
nothing, and exclusive or of byte strings of one length is exclusive or of their hashes. -/
theorem hash_is_remainder :
    (∀ data, ofWord (hash data).toBitVec =
      (ofBits (bits data) * X ^ 16) %ₘ (X ^ 16 + X ^ 12 + X ^ 5 + 1)) ∧
    (∀ data, hash (data ++ bigEndian (hash data)) = 0) ∧
    ∀ a b : Bytes, a.length = b.length →
      hash (List.zipWith (· ^^^ ·) a b) = hash a ^^^ hash b := by
  refine ⟨fun data => ?_, fun data => eq_of_residue ?_, fun a b h => eq_of_residue ?_⟩
  · exact eq_modByMonic_of_residue (degree_ofWord_lt (hash data).toBitVec) (residue_hash data)
  · have hbits : bits (data ++ bigEndian (hash data)) = bits data ++ bits (bigEndian (hash data)) :=
      List.flatMap_append
    have hlen : (bits (bigEndian (hash data))).length = 16 := length_bits _
    -- the string moved up has the residue of its hash, and twice that is nothing
    rw [residue_hash, hbits, ofBits_append, hlen, ofBits_bigEndian, mul_comm (X ^ 16), map_mul,
      map_add, ← residue_hash, ← map_add, CharTwo.add_self_eq_zero, UInt16.toBitVec_zero,
      ofWord_zero, map_zero, zero_mul]
  · rw [residue_hash, ofBits_zipWith h, add_mul, map_add, ← residue_hash, ← residue_hash,
      UInt16.toBitVec_xor, ofWord_xor, map_add]

/-- Two strings of three bytes, and their exclusive or. -/
theorem hash_is_remainder_foo :
    ([102, 111, 111] : Bytes).length = ([98, 97, 114] : Bytes).length ∧
      hash [4, 14, 29] = hash [102, 111, 111] ^^^ hash [98, 97, 114] :=
  have hlen : ([102, 111, 111] : Bytes).length = ([98, 97, 114] : Bytes).length := rfl
  ⟨hlen, hash_is_remainder.2.2 [102, 111, 111] [98, 97, 114] hlen⟩

/-- The digits one to nine, the check value of the polynomial. -/
example : hash [49, 50, 51, 52, 53, 54, 55, 56, 57] = 0x31c3 := by
  decide +kernel

end

end ShardProxy.Hash.Crc16
