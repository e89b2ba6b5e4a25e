/-
# Bits in rows of 64-bit words

Number `i` is bit `i % 64` of word `i / 64`.
-/

namespace MixiPgw.Lib.Bitmap

def bits (i : Nat) : UInt64 := (1 : UInt64) <<< UInt64.ofNat (i - (i >>> 6) <<< 6)

def has (word mask : UInt64) : Bool := word &&& mask != 0

theorem shift_six (i : Nat) : i - (i >>> 6) <<< 6 = i % 64 := by
  rw [Nat.shiftRight_eq_div_pow, Nat.shiftLeft_eq]
  omega

theorem toBitVec_bits (i : Nat) : (bits i).toBitVec = BitVec.twoPow 64 (i % 64) := by
  have hlt : i % 64 < UInt64.size := by
    simp only [UInt64.size]
    omega
  have hmod : ((UInt64.ofNat (i % 64)).toBitVec % 64).toNat = i % 64 := by
    rw [BitVec.toNat_umod, UInt64.toNat_toBitVec, UInt64.toNat_ofNat_of_lt' hlt]
    exact Nat.mod_mod i 64
  rw [bits, shift_six, UInt64.toBitVec_shiftLeft, BitVec.shiftLeft_eq', hmod, BitVec.twoPow_eq]
  rfl

theorem has_bits (word : UInt64) (i : Nat) :
    has word (bits i) = word.toBitVec.getLsbD (i % 64) := by
  have hne : BitVec.twoPow 64 (i % 64) ≠ 0#64 := by
    intro h
    have hbit := congrArg (fun v => v.getLsbD (i % 64)) h
    simp only [BitVec.getLsbD_twoPow, BitVec.getLsbD_zero, Nat.mod_lt i (show 0 < 64 by decide),
      decide_true, Bool.and_self] at hbit
    exact absurd hbit (by decide)
  have hzero : word &&& bits i = 0 ↔ (word.toBitVec &&& BitVec.twoPow 64 (i % 64)) = 0#64 := by
    rw [← toBitVec_bits, ← UInt64.toBitVec_and, UInt64.toBitVec_inj.symm]
    rfl
  unfold has
  rw [BitVec.and_twoPow] at hzero
  cases h : word.toBitVec.getLsbD (i % 64) with
  | false =>
    rw [h] at hzero
    simpa using hzero
  | true =>
    rw [h, if_pos rfl] at hzero
    simpa using fun hw => hne (hzero.mp hw)

/-- Flipping a number turns its own bit round and leaves the others of its word alone. -/
theorem has_xor (word : UInt64) (i j : Nat) :
    has (word ^^^ bits i) (bits j) = (has word (bits j) ^^ decide (i % 64 = j % 64)) := by
  rw [has_bits, has_bits, UInt64.toBitVec_xor, BitVec.getLsbD_xor, toBitVec_bits,
    BitVec.getLsbD_twoPow, decide_eq_true (Nat.mod_lt i (show 0 < 64 by decide)), Bool.true_and]

theorem eq_of_word_of_bit {i j : Nat} (hword : i >>> 6 = j >>> 6) (hbit : i % 64 = j % 64) :
    i = j := by
  simp only [Nat.shiftRight_eq_div_pow] at hword
  omega

end MixiPgw.Lib.Bitmap
